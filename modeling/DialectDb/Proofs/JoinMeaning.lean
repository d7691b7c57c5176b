/-
What a FROM clause means. A joined row is what each table contributes to
it: one of its rows, or NULLs. The rows on the left and those on the
right of a join are paired with each other where the condition is true,
and a row that an outer join keeps goes without a partner if it finds
none. A column of a table has in every joined row the value that it has
in the row which the table contributed.

The program works with plain rows, in nested loops that a right join
runs the other way around, and finds a column by counting the columns
before it. That this comes to the same is one step for each join
(`collect_joinRows_eq_ok`), and one count of places (`find?_eq_some_iff`).
-/
import Mathlib.Algebra.Ring.Nat
import DialectDb.Proofs.ScopedRows
import DialectDb.Proofs.Truth
import DialectDb.Proofs.Where

namespace DialectDb

-- ============================================================== places

namespace Place

/-- How many items there are in the lists before a place, and before an
item of the list at that place. -/
def offset (lengths : List Nat) (k i : Nat) : Nat :=
  (lengths.take k).sum + i

variable {α : Type} {lists : List (List α)} {list : List α} {k i : Nat}

theorem offset_succ (length : Nat) (lengths : List Nat) (k i : Nat) :
    offset (length :: lengths) (k + 1) i = length + offset lengths k i := by
  simp only [offset, List.take_succ_cons, List.sum_cons]
  omega

theorem getElem?_flatten_offset (hlist : lists[k]? = some list) (hi : i < list.length) :
    lists.flatten[offset (lists.map List.length) k i]? = list[i]? := by
  induction lists generalizing k with
  | nil => cases hlist
  | cons first rest ih =>
      cases k with
      | zero =>
          cases hlist
          rw [List.flatten_cons]
          simp only [offset, List.take_zero, List.sum_nil, Nat.zero_add]
          exact List.getElem?_append_left hi
      | succ k =>
          rw [List.map_cons, offset_succ, List.flatten_cons,
            List.getElem?_append_right (Nat.le_add_right _ _), Nat.add_sub_cancel_left]
          exact ih hlist

theorem exists_offset {index : Nat} (h : index < lists.flatten.length) :
    ∃ k list i, lists[k]? = some list ∧ i < list.length ∧
      index = offset (lists.map List.length) k i := by
  induction lists generalizing index with
  | nil => simp at h
  | cons first rest ih =>
      by_cases hfirst : index < first.length
      · exact ⟨0, first, index, rfl, hfirst, by simp [offset]⟩
      · rw [List.flatten_cons, List.length_append] at h
        have hrest : index - first.length < rest.flatten.length := by omega
        obtain ⟨k, list, i, hlist, hi, heq⟩ := ih hrest
        refine ⟨k + 1, list, i, hlist, hi, ?_⟩
        rw [List.map_cons, offset_succ]
        omega

theorem offset_injective {lengths : List Nat} {k' i' length length' : Nat}
    (hk : lengths[k]? = some length) (hi : i < length) (hk' : lengths[k']? = some length')
    (hi' : i' < length') (h : offset lengths k i = offset lengths k' i') : k = k' ∧ i = i' := by
  induction lengths generalizing k k' with
  | nil => cases hk
  | cons first rest ih =>
      cases k with
      | zero =>
          cases hk
          cases k' with
          | zero => exact ⟨rfl, by simpa [offset] using h⟩
          | succ k' =>
              rw [offset_succ] at h
              simp only [offset, List.take_zero, List.sum_nil] at h
              omega
      | succ k =>
          cases k' with
          | zero =>
              cases hk'
              rw [offset_succ] at h
              simp only [offset, List.take_zero, List.sum_nil] at h
              omega
          | succ k' =>
              rw [offset_succ, offset_succ] at h
              obtain ⟨hsame, hi⟩ := ih hk hk' (Nat.add_left_cancel h)
              exact ⟨congrArg (· + 1) hsame, hi⟩

end Place

-- ============================================================== chains

/-- A table of a FROM clause: the name that its columns go by, and what
it holds. -/
structure Part where
  label : String
  relation : Relation

namespace Part

/-- The labels of a table's columns. -/
def labels (table : Part) : List Label :=
  table.relation.columns.map (Label.qualified table.label)

/-- What a table contributes to a joined row: one of its rows, or
NULLs. -/
def values (table : Part) : Option Row → Row
  | some row => row
  | none => List.replicate table.relation.columns.length .null

end Part

/-- The tables that have been joined, and the joined rows. Each row is
given by what the tables contribute to it, in their order: a row of the
table, or none where NULLs stand in for it. -/
structure Chain where
  tables : List Part
  rows : List (List (Option Row))

namespace Chain

/-- The values of a row to which tables contribute. -/
def rowOf (tables : List Part) (parts : List (Option Row)) : Row :=
  (List.zipWith Part.values tables parts).flatten

/-- The values of a joined row. -/
def row (chain : Chain) (parts : List (Option Row)) : Row :=
  rowOf chain.tables parts

/-- The columns of the joined rows. -/
def layout (chain : Chain) : Layout :=
  { labels := (chain.tables.map Part.labels).flatten }

/-- A single row without columns. -/
def nothing : Chain := ⟨[], [[]]⟩

/-- The rows of a table. -/
def single (table : Part) : Chain :=
  ⟨[table], table.relation.rows.map fun row => [some row]⟩

/-- Whether a left and a right row belong together: the condition is true
of them, or there is none, as in a cross join. -/
def pairs (chain : Chain) (predicate : Option Formula) (left : List (Option Row)) (right : Row) :
    Bool :=
  predicate.all fun e => e.isTrue (chain.row left ++ right)

/-- The rows of a chain joined with one more table. -/
def extendedRows (chain : Chain) (kind : JoinKind) (table : Part) (predicate : Option Formula) :
    List (List (Option Row)) :=
  match kind with
  | .inner | .cross =>
    chain.rows.flatMap fun left =>
      (table.relation.rows.filter (chain.pairs predicate left)).map fun right =>
        left ++ [some right]
  | .left =>
    chain.rows.flatMap fun left =>
      orAlone (left ++ [none])
        ((table.relation.rows.filter (chain.pairs predicate left)).map fun right =>
          left ++ [some right])
  | .right =>
    table.relation.rows.flatMap fun right =>
      orAlone (chain.tables.map (fun _ => none) ++ [some right])
        ((chain.rows.filter (chain.pairs predicate · right)).map fun left =>
          left ++ [some right])

/-- A chain joined with one more table. -/
def extend (chain : Chain) (kind : JoinKind) (table : Part) (predicate : Option Formula) :
    Chain :=
  ⟨chain.tables ++ [table], chain.extendedRows kind table predicate⟩

/-- The join of a chain with further tables, one after the other from the
left. The tables and the names in the conditions have to be known, and
every condition has to have a truth value, or NULL, on all pairs of a
left and a right row. -/
inductive Joins (context : Context) : Chain → List Join → Chain → Prop
  | done {chain : Chain} : Joins context chain [] chain
  | join {chain after : Chain} {j : Join} {rest : List Join} {relation : Relation} {scope : Scope}
      {predicate : Option Formula}
      (relation_eq : context.relation j.table.name = .ok relation)
      (scope_eq : Scope.merge ⟨chain.layout, context.outer⟩
        (Scope.ofColumns j.table.label relation.columns) = .ok scope)
      (predicate_eq : j.predicate.mapM scope.resolve = .ok predicate)
      (decides : ∀ left ∈ chain.rows, ∀ right ∈ relation.rows, ∀ e ∈ predicate,
        e.Decides (chain.row left ++ right))
      (rest_joins : Joins context (chain.extend j.kind ⟨j.table.label, relation⟩ predicate) rest
        after) :
      Joins context chain (j :: rest) after

/-- The first table of a FROM clause, if there is one. -/
inductive Starts (context : Context) : Option TableRef → Chain → Prop
  | nothing : Starts context none nothing
  | table {table : TableRef} {relation : Relation}
      (relation_eq : context.relation table.name = .ok relation) :
      Starts context (some table) (single ⟨table.label, relation⟩)

/-- What a FROM clause means. -/
def Means (context : Context) (table : Option TableRef) (joins : List Join) (chain : Chain) :
    Prop :=
  ∃ start, Starts context table start ∧ Joins context start joins chain

-- ====================================================== contributions

/-- Every table contributes, and what it contributes is one of its rows,
if any. -/
def Contribute (tables : List Part) (parts : List (Option Row)) : Prop :=
  List.Forall₂ (fun table part => ∀ row ∈ part, row ∈ table.relation.rows) tables parts

/-- All tables contribute to every row. -/
def Sound (chain : Chain) : Prop :=
  ∀ parts ∈ chain.rows, Contribute chain.tables parts

variable {context : Context} {chain after : Chain} {parts : List (Option Row)}

theorem Sound.append {table : Part} {part : Option Row} (h : chain.Sound)
    (hparts : parts ∈ chain.rows) (hpart : ∀ row ∈ part, row ∈ table.relation.rows) :
    Contribute (chain.tables ++ [table]) (parts ++ [part]) :=
  List.rel_append (h parts hparts) (.cons hpart .nil)

theorem Sound.extend (h : chain.Sound) (kind : JoinKind) (table : Part)
    (predicate : Option Formula) : (chain.extend kind table predicate).Sound := by
  have hpair : ∀ left ∈ chain.rows, ∀ right ∈ table.relation.rows,
      Contribute (chain.tables ++ [table]) (left ++ [some right]) :=
    fun left hleft right hright => h.append hleft fun row hrow =>
      Option.mem_some_iff.mp hrow ▸ hright
  have hpartner : ∀ left ∈ chain.rows, ∀ parts ∈ (table.relation.rows.filter
      (chain.pairs predicate left)).map fun right => left ++ [some right],
      Contribute (chain.tables ++ [table]) parts := by
    intro left hleft parts hparts
    obtain ⟨right, hright, rfl⟩ := List.mem_map.mp hparts
    exact hpair left hleft right (List.mem_filter.mp hright).1
  intro parts hparts
  cases kind with
  | inner =>
      obtain ⟨left, hleft, hparts⟩ := List.mem_flatMap.mp hparts
      exact hpartner left hleft parts hparts
  | cross =>
      obtain ⟨left, hleft, hparts⟩ := List.mem_flatMap.mp hparts
      exact hpartner left hleft parts hparts
  | left =>
      obtain ⟨left, hleft, hparts⟩ := List.mem_flatMap.mp hparts
      rcases mem_orAlone hparts with rfl | hparts
      · exact h.append hleft fun row hrow => nomatch hrow
      · exact hpartner left hleft parts hparts
  | right =>
      obtain ⟨right, hright, hparts⟩ := List.mem_flatMap.mp hparts
      rcases mem_orAlone hparts with rfl | hparts
      · have hnulls : Contribute chain.tables (chain.tables.map fun _ => none) :=
          List.forall₂_map_right_iff.mpr (List.forall₂_same.mpr fun _ _ => nofun)
        refine List.rel_append hnulls (.cons (fun row hrow => ?_) .nil)
        rwa [← Option.mem_some_iff.mp hrow]
      · obtain ⟨left, hleft, rfl⟩ := List.mem_map.mp hparts
        exact hpair left (List.mem_filter.mp hleft).1 right hright

theorem Joins.sound {joins : List Join} (h : Joins context chain joins after)
    (hchain : chain.Sound) : after.Sound := by
  induction h with
  | done => exact hchain
  | join _ _ _ _ _ ih => exact ih (hchain.extend _ _ _)

theorem Starts.sound {table : Option TableRef} (h : Starts context table chain) : chain.Sound := by
  cases h with
  | nothing =>
      intro parts hparts
      rw [List.mem_singleton.mp hparts]
      exact .nil
  | table =>
      intro parts hparts
      obtain ⟨row, hrow, rfl⟩ := List.mem_map.mp hparts
      exact .cons (fun other hother => Option.mem_some_iff.mp hother ▸ hrow) .nil

-- ============================================================= columns

/-- A column that a qualified reference can mean: the place of the table
among the tables, and that of the column in it. -/
def Names (chain : Chain) (t column : String) (k i : Nat) : Prop :=
  ∃ table name, chain.tables[k]? = some table ∧ table.relation.columns[i]? = some name ∧
    Text.sameName table.label t = true ∧ Text.sameName name column = true

/-- The value of such a column in what the table contributes to a row:
that in a row of the table, or NULL. -/
def Holds (chain : Chain) (parts : List (Option Row)) (k i : Nat) (value : Value) : Prop :=
  ∃ table part, chain.tables[k]? = some table ∧ parts[k]? = some part ∧
    match part with
    | some row => row ∈ table.relation.rows ∧ row[i]? = some value
    | none => value = .null

/-- Every row of every table has a value for each column. -/
def Regular (chain : Chain) : Prop :=
  ∀ table ∈ chain.tables, table.relation.Regular

theorem Joins.regular (hcontext : context.Regular) {joins : List Join}
    (h : Joins context chain joins after) (hchain : chain.Regular) : after.Regular := by
  induction h with
  | done => exact hchain
  | join hrelation _ _ _ _ ih =>
      refine ih fun table htable => ?_
      rcases List.mem_append.mp htable with htable | htable
      · exact hchain table htable
      · rw [List.mem_singleton.mp htable]
        exact hcontext.relation hrelation

theorem Starts.regular (hcontext : context.Regular) {table : Option TableRef}
    (h : Starts context table chain) : chain.Regular := by
  cases h with
  | nothing => exact fun _ htable => nomatch htable
  | table hrelation =>
      intro table htable
      rw [List.mem_singleton.mp htable]
      exact hcontext.relation hrelation

/-- How many columns the tables have. -/
def widths (chain : Chain) : List Nat :=
  chain.tables.map fun table => table.relation.columns.length

theorem length_labels (chain : Chain) :
    (chain.tables.map Part.labels).map List.length = chain.widths := by
  rw [List.map_map]
  exact List.map_congr_left fun table _ => List.length_map _

theorem length_values {tables : List Part} (htables : ∀ table ∈ tables, table.relation.Regular)
    (h : Contribute tables parts) :
    (List.zipWith Part.values tables parts).map List.length =
      tables.map fun table => table.relation.columns.length := by
  induction h with
  | nil => rfl
  | @cons table part tables parts hpart _ ih =>
      obtain ⟨htable, htables⟩ := List.forall_mem_cons.mp htables
      rw [List.zipWith_cons_cons, List.map_cons, List.map_cons, ih htables]
      congr 1
      cases part with
      | none => exact List.length_replicate
      | some row => exact htable row (hpart row rfl)

/-- A reference that a column answers to finds it behind the columns of
the tables before. -/
theorem getElem?_labels {k i : Nat} {table : Part} {name : String}
    (htable : chain.tables[k]? = some table) (hname : table.relation.columns[i]? = some name) :
    chain.layout.labels[Place.offset chain.widths k i]? = some (.qualified table.label name) := by
  have hlist : (chain.tables.map Part.labels)[k]? = some table.labels := by
    rw [List.getElem?_map, htable]
    rfl
  have hlabel : table.labels[i]? = some (.qualified table.label name) := by
    rw [Part.labels, List.getElem?_map, hname]
    rfl
  have hi : i < table.labels.length := (List.getElem?_eq_some_iff.mp hlabel).1
  rw [← length_labels, ← hlabel]
  exact Place.getElem?_flatten_offset hlist hi

/-- A qualified reference that finds a column means one column of one
table. -/
theorem names_of_find? {t column : String} {index : Nat}
    (h : chain.layout.find? (some t) column = .ok (some index)) :
    ∃ k i, chain.Names t column k i ∧ index = Place.offset chain.widths k i ∧
      ∀ k' i', chain.Names t column k' i' → k' = k ∧ i' = i := by
  obtain ⟨label, hlabel, hnamed, honly⟩ := Layout.find?_eq_some h
  have hindex : index < (chain.tables.map Part.labels).flatten.length :=
    (List.getElem?_eq_some_iff.mp hlabel).1
  obtain ⟨k, list, i, hlist, hi, rfl⟩ := Place.exists_offset hindex
  rw [List.getElem?_map] at hlist
  obtain ⟨table, htable, rfl⟩ := Option.map_eq_some_iff.mp hlist
  have hcolumn : i < table.relation.columns.length := by
    rwa [Part.labels, List.length_map] at hi
  have hname : table.relation.columns[i]? = some table.relation.columns[i] :=
    List.getElem?_eq_getElem hcolumn
  rw [length_labels] at hlabel honly ⊢
  obtain rfl := Option.some.inj ((getElem?_labels htable hname).symm.trans hlabel)
  simp only [Label.isNamed, Option.all_some, Bool.and_eq_true] at hnamed
  refine ⟨k, i, ⟨table, _, htable, hname, hnamed.1, hnamed.2⟩, rfl, ?_⟩
  rintro k' i' ⟨table', name', htable', hname', ht', hcolumn'⟩
  have hsame := honly _ _ (getElem?_labels htable' hname')
    (by simp [Label.isNamed, ht', hcolumn'])
  have hwidth {k : Nat} {table : Part} (htable : chain.tables[k]? = some table) :
      chain.widths[k]? = some table.relation.columns.length := by
    rw [widths, List.getElem?_map, htable]
    rfl
  exact Place.offset_injective (hwidth htable') (List.getElem?_eq_some_iff.mp hname').1
    (hwidth htable) hcolumn hsame

/-- The value at the place of a column is that in what its table
contributed. -/
theorem holds_at (hregular : chain.Regular) (hsound : chain.Sound) {t column : String} {k i : Nat}
    (h : chain.Names t column k i) (hparts : parts ∈ chain.rows) :
    ∃ value, (chain.row parts)[Place.offset chain.widths k i]? = some value ∧
      chain.Holds parts k i value := by
  obtain ⟨table, name, htable, hname, -, -⟩ := h
  have hcolumn := (List.getElem?_eq_some_iff.mp hname).1
  obtain ⟨hk, rfl⟩ := List.getElem?_eq_some_iff.mp htable
  have hall := hsound parts hparts
  have hk' : k < parts.length := by
    rw [← hall.length_eq]
    exact hk
  obtain ⟨part, hpart⟩ : ∃ part, parts[k]? = some part := ⟨_, List.getElem?_eq_getElem hk'⟩
  have hrow : ∀ row ∈ part, row ∈ chain.tables[k].relation.rows := by
    obtain ⟨-, rfl⟩ := List.getElem?_eq_some_iff.mp hpart
    exact (List.forall₂_iff_get.mp hall).2 k hk hk'
  have hvalues : (List.zipWith Part.values chain.tables parts)[k]? =
      some (chain.tables[k].values part) := by
    rw [List.getElem?_zipWith, htable, hpart]
  have hlength : (chain.tables[k].values part).length =
      chain.tables[k].relation.columns.length := by
    cases part with
    | none => exact List.length_replicate
    | some row => exact hregular _ (List.getElem_mem hk) row (hrow row rfl)
  have hi : i < (chain.tables[k].values part).length := by
    rw [hlength]
    exact hcolumn
  have hplace := Place.getElem?_flatten_offset hvalues hi
  rw [length_values hregular hall] at hplace
  obtain ⟨value, hvalue⟩ : ∃ value, (chain.tables[k].values part)[i]? = some value :=
    ⟨_, List.getElem?_eq_getElem hi⟩
  refine ⟨value, hplace.trans hvalue, chain.tables[k], part, htable, hpart, ?_⟩
  cases part with
  | none =>
      rw [Part.values, List.getElem?_replicate, if_pos hcolumn] at hvalue
      exact (Option.some.inj hvalue).symm
  | some row => exact ⟨hrow row rfl, hvalue⟩

end Chain

-- ============================================================== program

/-- Whether a combined row passes can be told iff the condition has a
truth value, or NULL. -/
theorem Joining.passes_eq_ok {j : Joining} {row : Row} {keep : Bool} :
    j.passes row = .ok keep ↔
      (∀ e ∈ j.predicate, e.Decides row) ∧ keep = j.predicate.all (·.isTrue row) := by
  unfold passes
  cases j.predicate with
  | none => simp [eq_comm]
  | some e =>
      simp only [Option.mem_some_iff, forall_eq', Option.all_some, Formula.Decides, Formula.isTrue]
      rcases e.eval row with _ | (_ | b | _ | _ | _)
      all_goals simp [eq_comm]
      cases b <;> simp

theorem Joining.isMatch_eq (j : Joining) (row : Row) :
    j.isMatch row = j.predicate.all (·.isTrue row) := by
  unfold isMatch passes
  cases j.predicate with
  | none => rfl
  | some e =>
      simp only [Option.all_some, Formula.isTrue]
      rcases e.eval row with _ | (_ | b | _ | _ | _)
      all_goals try rfl
      cases b <;> rfl

/-- The inner rows that an outer row makes a row with. -/
theorem Joining.filter_isMatch (j : Joining) (inner : List Row) (outer : Row) :
    (inner.map (j.combine outer)).filter j.isMatch =
      (inner.filter fun row => j.predicate.all (·.isTrue (j.combine outer row))).map
        (j.combine outer) := by
  rw [List.filter_map]
  congr 1
  exact List.filter_congr fun row _ => j.isMatch_eq _

namespace Chain

variable {chain : Chain}

theorem row_append (h : chain.Sound) {parts : List (Option Row)} (hparts : parts ∈ chain.rows)
    (table : Part) (part : Option Row) :
    rowOf (chain.tables ++ [table]) (parts ++ [part]) = chain.row parts ++ table.values part := by
  have hlength := (h parts hparts).length_eq
  rw [rowOf, List.zipWith_append hlength, List.flatten_append, row, rowOf]
  simp

/-- Where NULLs stand in for all tables, there is one for each column. -/
theorem row_nulls (chain : Chain) (table : Part) (right : Row) :
    rowOf (chain.tables ++ [table]) (chain.tables.map (fun _ => none) ++ [some right]) =
      List.replicate chain.layout.labels.length .null ++ right := by
  have hnulls : (List.zipWith Part.values chain.tables (chain.tables.map fun _ => none)).flatten =
      List.replicate (chain.tables.map Part.labels).flatten.length .null := by
    induction chain.tables with
    | nil => rfl
    | cons first rest ih =>
        rw [List.map_cons, List.map_cons, List.zipWith_cons_cons, List.flatten_cons, ih,
          List.flatten_cons, List.length_append, ← List.replicate_append_replicate, Part.labels,
          List.length_map]
        rfl
  rw [rowOf, List.zipWith_append (List.length_map _).symm, List.flatten_append, hnulls]
  simp [Part.values, layout]

end Chain

namespace Source

variable {context : Context} {source : Source} {chain : Chain}

/-- Nested loops over the rows on the left give for each of them, in
order, what it makes with the rows on the right. -/
theorem collect_rows_left {j : Joining} {predicate : Option Formula} {padding : Option Nat}
    (hj : j = ⟨predicate, padding, false⟩)
    (hrows : source.rows.collect = .ok (chain.rows.map chain.row)) {right read : List Row} :
    (do (← j.rows right source.rows).collect) = .ok read ↔
      (∀ left ∈ chain.rows, ∀ row ∈ right, ∀ e ∈ predicate, e.Decides (chain.row left ++ row)) ∧
      read = chain.rows.flatMap fun left => j.given right (chain.row left) := by
  rw [Joining.collect_rows_eq_ok]
  simp only [hrows, Except.ok.injEq, exists_eq_left', Joining.passes_eq_ok, List.forall_mem_map,
    exists_and_left, exists_eq, and_true, List.flatMap_map]
  rw [hj]
  exact Iff.rfl

/-- Nested loops over the rows on the right do the same the other way
around. -/
theorem collect_rows_right {j : Joining} {predicate : Option Formula} {padding : Option Nat}
    (hj : j = ⟨predicate, padding, true⟩) {right read : List Row} :
    (do (← j.rows (chain.rows.map chain.row) (Rows.ofList right)).collect) = .ok read ↔
      (∀ left ∈ chain.rows, ∀ row ∈ right, ∀ e ∈ predicate, e.Decides (chain.row left ++ row)) ∧
      read = right.flatMap fun row => j.given (chain.rows.map chain.row) row := by
  rw [Joining.collect_rows_eq_ok]
  simp only [Rows.collect_ofList, Except.ok.injEq, exists_eq_left', Joining.passes_eq_ok,
    List.forall_mem_map, exists_and_left, exists_eq, and_true]
  rw [hj]
  refine and_congr ⟨fun h left hleft row hrow => h row hrow left hleft,
    fun h row hrow left hleft => h left hleft row hrow⟩ Iff.rfl

/-- Read to the end, the rows of a join are those of the extended chain.
It succeeds iff the condition has a truth value, or NULL, on all
pairs. -/
theorem collect_joinRows_eq_ok (hsound : chain.Sound)
    (hwidth : source.scope.width = chain.layout.labels.length)
    (hrows : source.rows.collect = .ok (chain.rows.map chain.row)) (kind : JoinKind) (table : Part)
    (predicate : Option Formula) {read : List Row} :
    (do (← source.joinRows kind table.relation predicate).collect) = .ok read ↔
      (∀ left ∈ chain.rows, ∀ right ∈ table.relation.rows, ∀ e ∈ predicate,
        e.Decides (chain.row left ++ right)) ∧
      read = (chain.extend kind table predicate).rows.map
        (chain.extend kind table predicate).row := by
  have hinner : ∀ left ∈ chain.rows,
      ((table.relation.rows.filter (chain.pairs predicate left)).map fun right =>
          left ++ [some right]).map (Chain.rowOf (chain.tables ++ [table])) =
        (table.relation.rows.filter (chain.pairs predicate left)).map (chain.row left ++ ·) := by
    intro left hleft
    rw [List.map_map]
    exact List.map_congr_left fun right _ => Chain.row_append hsound hleft table (some right)
  show _ ↔ _ ∧ read = (chain.extendedRows kind table predicate).map
    (Chain.rowOf (chain.tables ++ [table]))
  cases kind with
  | inner =>
      refine (collect_rows_left rfl hrows).trans (and_congr Iff.rfl (Eq.congr_right ?_))
      rw [Chain.extendedRows, List.map_flatMap]
      refine List.flatMap_congr fun left hleft => ?_
      rw [hinner left hleft]
      exact Joining.filter_isMatch _ _ _
  | cross =>
      refine (collect_rows_left rfl hrows).trans (and_congr Iff.rfl (Eq.congr_right ?_))
      rw [Chain.extendedRows, List.map_flatMap]
      refine List.flatMap_congr fun left hleft => ?_
      rw [hinner left hleft]
      exact Joining.filter_isMatch _ _ _
  | left =>
      refine (collect_rows_left rfl hrows).trans (and_congr Iff.rfl (Eq.congr_right ?_))
      rw [Chain.extendedRows, List.map_flatMap]
      refine List.flatMap_congr fun left hleft => ?_
      rw [map_orAlone, hinner left hleft, Chain.row_append hsound hleft]
      exact congrArg (orAlone _) (Joining.filter_isMatch _ _ _)
  | right =>
      rw [joinRows_right, bind_assoc, hrows, Result.ok_bind]
      refine (collect_rows_right rfl).trans (and_congr Iff.rfl (Eq.congr_right ?_))
      rw [Chain.extendedRows, List.map_flatMap]
      refine List.flatMap_congr fun right _ => ?_
      rw [map_orAlone, Chain.row_nulls, ← hwidth]
      refine congrArg (orAlone _) ((Joining.filter_isMatch _ _ _).trans ?_)
      rw [List.filter_map, List.map_map, List.map_map]
      refine List.map_congr_left fun left hleft => ?_
      exact (Chain.row_append hsound (List.mem_filter.mp hleft).1 table (some right)).symm

/-- The rows of a source are those of a chain. -/
structure Gives (source : Source) (context : Context) (chain : Chain) : Prop where
  scope : source.scope = ⟨chain.layout, context.outer⟩
  rows : source.rows.collect = .ok (chain.rows.map chain.row)

theorem Gives.width (h : source.Gives context chain) :
    source.scope.width = chain.layout.labels.length := by
  rw [h.scope]
  rfl

theorem gives_of_first {table : Option TableRef} (h : first context table = .ok source) :
    ∃ start, Chain.Starts context table start ∧ source.Gives context start := by
  cases table with
  | none =>
      cases h
      exact ⟨_, .nothing, rfl, Rows.collect_ofList _⟩
  | some table =>
      obtain ⟨relation, hrelation, h⟩ := Result.bind_eq_ok.mp h
      cases h
      refine ⟨_, .table hrelation, ?_, ?_⟩
      · simp [Chain.single, Chain.layout, Part.labels, Scope.ofColumns, Scope.ofLabels]
      · rw [Rows.collect_ofList, Chain.single, List.map_map]
        congr 1
        refine ((List.map_congr_left fun row _ => ?_).trans (List.map_id _)).symm
        simp [Chain.row, Chain.rowOf, Part.values]

theorem first_gives {table : Option TableRef} {start : Chain}
    (h : Chain.Starts context table start) :
    ∃ source, first context table = .ok source ∧ source.Gives context start := by
  obtain ⟨source, hfirst⟩ : ∃ source, first context table = .ok source := by
    cases h with
    | nothing => exact ⟨_, rfl⟩
    | table hrelation => exact ⟨_, by rw [first, hrelation]; rfl⟩
  obtain ⟨other, hother, hgives⟩ := gives_of_first hfirst
  refine ⟨source, hfirst, ?_⟩
  cases h with
  | nothing =>
      cases hother
      exact hgives
  | table hrelation =>
      cases hother with
      | table hsame =>
          cases hrelation.symm.trans hsame
          exact hgives

/-- The columns of a chain that is joined with one more table. -/
theorem scope_extend {kind : JoinKind} {table : Part} {predicate : Option Formula} {scope : Scope}
    (h : Scope.merge ⟨chain.layout, context.outer⟩
      (Scope.ofColumns table.label table.relation.columns) = .ok scope) :
    scope = ⟨(chain.extend kind table predicate).layout, context.outer⟩ := by
  have hlabels := Scope.merge_labels h
  obtain ⟨houter, hslots⟩ := Scope.merge_keeps h
  obtain ⟨⟨labels, slots⟩, outer⟩ := scope
  simp only [Scope.labels] at hlabels
  simp only [Chain.layout, Chain.extend, List.map_append, List.flatten_append, Scope.mk.injEq,
    Layout.mk.injEq]
  exact ⟨⟨hlabels.trans (by simp [Chain.layout, Part.labels, Scope.ofColumns, Scope.ofLabels]),
    hslots⟩, houter⟩

theorem collect_of_join {joined : Source} {j : Join} (hjoin : source.join context j = .ok joined)
    {read : List Row} (hread : joined.rows.collect = .ok read) :
    ∃ before, source.rows.collect = .ok before := by
  obtain ⟨relation, -, hjoin⟩ := Result.bind_eq_ok.mp hjoin
  obtain ⟨scope, -, hjoin⟩ := Result.bind_eq_ok.mp hjoin
  obtain ⟨predicate, -, hjoin⟩ := Result.bind_eq_ok.mp hjoin
  obtain ⟨rows, hrows, hjoin⟩ := Result.bind_eq_ok.mp hjoin
  cases hjoin
  by_cases hkind : j.kind = .right
  · rw [hkind, joinRows_right] at hrows
    obtain ⟨before, hbefore, -⟩ := Result.bind_eq_ok.mp hrows
    exact ⟨before, hbefore⟩
  · rw [joinRows_eq source hkind] at hrows
    have hall : (do (← (source.joining j.kind relation predicate).rows relation.rows
        source.rows).collect) = .ok read := by
      rw [hrows]
      exact hread
    obtain ⟨before, hbefore, -⟩ := Joining.collect_rows_eq_ok.mp hall
    exact ⟨before, hbefore⟩

/-- What can be read after the joins could be read before them. -/
theorem collect_of_joins {joins : List Join} {last : Source}
    (h : joins.foldlM (join context) source = .ok last) {read : List Row}
    (hread : last.rows.collect = .ok read) : ∃ before, source.rows.collect = .ok before := by
  induction joins generalizing source with
  | nil =>
      cases h
      exact ⟨read, hread⟩
  | cons j rest ih =>
      rw [List.foldlM_cons] at h
      obtain ⟨joined, hjoin, h⟩ := Result.bind_eq_ok.mp h
      obtain ⟨before, hbefore⟩ := ih h
      exact collect_of_join hjoin hbefore

/-- A join that can be read extends the chain. -/
theorem gives_of_join (hsound : chain.Sound) (h : source.Gives context chain) {joined : Source}
    {j : Join} (hjoin : source.join context j = .ok joined) {read : List Row}
    (hread : joined.rows.collect = .ok read) :
    ∃ after, Chain.Joins context chain [j] after ∧ joined.Gives context after := by
  obtain ⟨relation, hrelation, hjoin⟩ := Result.bind_eq_ok.mp hjoin
  obtain ⟨scope, hmerge, hjoin⟩ := Result.bind_eq_ok.mp hjoin
  obtain ⟨predicate, hpredicate, hjoin⟩ := Result.bind_eq_ok.mp hjoin
  obtain ⟨rows, hrows, hjoin⟩ := Result.bind_eq_ok.mp hjoin
  cases hjoin
  rw [h.scope] at hmerge
  have hall : (do (← source.joinRows j.kind relation predicate).collect) = .ok read := by
    rw [hrows]
    exact hread
  obtain ⟨hdecides, rfl⟩ := (collect_joinRows_eq_ok hsound h.width h.rows j.kind
    ⟨j.table.label, relation⟩ predicate).mp hall
  exact ⟨_, .join hrelation hmerge hpredicate hdecides .done, scope_extend hmerge, hread⟩

/-- Joins that extend a chain can be made, and give its rows. -/
theorem joins_give (hsound : chain.Sound) (h : source.Gives context chain) {joins : List Join}
    {after : Chain} (hjoins : Chain.Joins context chain joins after) :
    ∃ last, joins.foldlM (join context) source = .ok last ∧ last.Gives context after := by
  induction hjoins generalizing source with
  | done => exact ⟨source, rfl, h⟩
  | @join chain after j rest relation scope predicate hrelation hmerge hpredicate hdecides _ ih =>
      have hall := (collect_joinRows_eq_ok hsound h.width h.rows j.kind
        ⟨j.table.label, relation⟩ predicate).mpr ⟨hdecides, rfl⟩
      obtain ⟨rows, hrows, hcollect⟩ := Result.bind_eq_ok.mp hall
      have hjoin : source.join context j = .ok ⟨scope, rows⟩ := by
        rw [← h.scope] at hmerge
        simp only [join, hrelation, hmerge, hpredicate, hrows, Result.ok_bind]
        rfl
      have hjoined : Source.Gives ⟨scope, rows⟩ context
          (chain.extend j.kind ⟨j.table.label, relation⟩ predicate) :=
        ⟨scope_extend hmerge, hcollect⟩
      obtain ⟨last, hlast, hgives⟩ := ih (hsound.extend _ _ _) hjoined
      refine ⟨last, ?_, hgives⟩
      rw [List.foldlM_cons, hjoin]
      exact hlast

/-- Joins that can be read to the end extend the chain. -/
theorem gives_of_joins (hsound : chain.Sound) (h : source.Gives context chain)
    {joins : List Join} {last : Source} (hlast : joins.foldlM (join context) source = .ok last)
    {read : List Row} (hread : last.rows.collect = .ok read) :
    ∃ after, Chain.Joins context chain joins after ∧ last.Gives context after := by
  induction joins generalizing source chain with
  | nil =>
      cases hlast
      exact ⟨chain, .done, h⟩
  | cons j rest ih =>
      rw [List.foldlM_cons] at hlast
      obtain ⟨joined, hjoin, hlast⟩ := Result.bind_eq_ok.mp hlast
      obtain ⟨before, hbefore⟩ := collect_of_joins hlast hread
      obtain ⟨mid, hstep, hmid⟩ := gives_of_join hsound h hjoin hbefore
      obtain ⟨after, hrest, hafter⟩ := ih (hstep.sound hsound) hmid hlast
      cases hstep with
      | join hrelation hmerge hpredicate hdecides hdone =>
          cases hdone
          exact ⟨after, .join hrelation hmerge hpredicate hdecides hrest, hafter⟩

theorem ofClause_gives {table : Option TableRef} {joins : List Join}
    (h : Chain.Means context table joins chain) :
    ∃ source, ofClause context table joins = .ok source ∧ source.Gives context chain := by
  obtain ⟨start, hstart, hjoins⟩ := h
  obtain ⟨before, hfirst, hgives⟩ := first_gives hstart
  obtain ⟨source, hsource, hchain⟩ := joins_give hstart.sound hgives hjoins
  refine ⟨source, ?_, hchain⟩
  rw [ofClause, hfirst]
  exact hsource

theorem gives_of_ofClause {table : Option TableRef} {joins : List Join}
    (h : ofClause context table joins = .ok source) {read : List Row}
    (hread : source.rows.collect = .ok read) :
    ∃ chain, Chain.Means context table joins chain ∧ source.Gives context chain := by
  obtain ⟨before, hfirst, hlast⟩ := Result.bind_eq_ok.mp h
  obtain ⟨start, hstart, hgives⟩ := gives_of_first hfirst
  obtain ⟨chain, hjoins, hchain⟩ := gives_of_joins hstart.sound hgives hlast hread
  exact ⟨chain, ⟨start, hstart, hjoins⟩, hchain⟩

/-- A qualified reference to a column of the joined rows gives the value
of that column in what its table contributed. -/
theorem Gives.eval_column (h : source.Gives context chain) (hregular : chain.Regular)
    (hsound : chain.Sound) {t column : String} {formula : Formula}
    (hresolve : source.scope.resolve (.column (some t) column) = .ok formula) :
    (∃ k i, chain.Names t column k i ∧
      (∀ k' i', chain.Names t column k' i' → k' = k ∧ i' = i) ∧
      ∀ parts ∈ chain.rows, ∃ value, formula.eval (chain.row parts) = .ok value ∧
        chain.Holds parts k i value) ∨
    (∀ k i, ¬chain.Names t column k i) ∧
      ∃ value, Frame.lookup (some t) column context.outer = .ok value ∧
        formula = .const value := by
  rw [h.scope] at hresolve
  have hslot : ∀ e, chain.layout.slot? e = none := Layout.slot?_eq_none rfl
  simp only [Scope.resolve, hslot] at hresolve
  obtain ⟨place, hfind, hresolve⟩ := Result.bind_eq_ok.mp hresolve
  cases place with
  | some index =>
      cases hresolve
      obtain ⟨k, i, hnames, rfl, honly⟩ := Chain.names_of_find? hfind
      refine .inl ⟨k, i, hnames, honly, fun parts hparts => ?_⟩
      obtain ⟨value, hvalue, hholds⟩ := Chain.holds_at hregular hsound hnames hparts
      exact ⟨value, by simp [Formula.eval, hvalue], hholds⟩
  | none =>
      obtain ⟨value, hvalue, rfl⟩ := Result.map_eq_ok.mp hresolve
      refine .inr ⟨?_, value, hvalue, rfl⟩
      rintro k i ⟨table, name, htable, hname, ht, hcolumn⟩
      have hlabel := List.mem_of_getElem? (Chain.getElem?_labels htable hname)
      have hopen := Layout.find?_eq_none_iff.mp hfind _ hlabel
      simp [Label.isNamed, ht, hcolumn] at hopen

/-- A FROM clause has its meaning. Read to the end, its rows are the
joined rows, and it can be read iff the names are known and every
condition has a truth value, or NULL, on all pairs of rows. A qualified
reference that resolves to a column of theirs gives in every row the
value that the column has in the row which its table contributed, or NULL
where that table contributed none; any other one is not a column of the
joined rows, but of the rows around a subquery. -/
theorem ofClause_means (hvalid : context.store.Valid)
    (hctes : ∀ cte ∈ context.ctes, cte.2.Regular) (table : Option TableRef) (joins : List Join) :
    (∀ read, (do (← ofClause context table joins).rows.collect) = .ok read ↔
      ∃ chain, Chain.Means context table joins chain ∧ read = chain.rows.map chain.row) ∧
    ∀ chain source t column formula, Chain.Means context table joins chain →
      ofClause context table joins = .ok source →
      source.scope.resolve (.column (some t) column) = .ok formula →
      (∃ k i, chain.Names t column k i ∧
        (∀ k' i', chain.Names t column k' i' → k' = k ∧ i' = i) ∧
        ∀ parts ∈ chain.rows, ∃ value, formula.eval (chain.row parts) = .ok value ∧
          chain.Holds parts k i value) ∨
      (∀ k i, ¬chain.Names t column k i) ∧
        ∃ value, Frame.lookup (some t) column context.outer = .ok value ∧
          formula = .const value := by
  constructor
  · intro read
    constructor
    · intro h
      obtain ⟨source, hsource, hread⟩ := Result.bind_eq_ok.mp h
      obtain ⟨chain, hmeans, hgives⟩ := gives_of_ofClause hsource hread
      exact ⟨chain, hmeans, Except.ok.inj (hread.symm.trans hgives.rows)⟩
    · rintro ⟨chain, hmeans, rfl⟩
      obtain ⟨source, hsource, hgives⟩ := ofClause_gives hmeans
      rw [hsource]
      exact hgives.rows
  · intro chain source t column formula hmeans hsource hresolve
    obtain ⟨_, hsame, hgives⟩ := ofClause_gives hmeans
    cases hsource.symm.trans hsame
    obtain ⟨start, hstart, hjoins⟩ := hmeans
    have hregular := hjoins.regular ⟨hvalid, hctes⟩ (hstart.regular ⟨hvalid, hctes⟩)
    exact hgives.eval_column hregular (hjoins.sound hstart.sound) hresolve

end Source

namespace Where

/-- `FROM Pages a LEFT JOIN Pages b ON a.link = b.id RIGHT JOIN Pages c ON
b.link = c.id` -/
def linkJoins : List Join := [
  ⟨.left, ⟨"Pages", some "b", []⟩,
    some (.binary .equal (.column (some "a") "link") (.column (some "b") "id"))⟩,
  ⟨.right, ⟨"Pages", some "c", []⟩,
    some (.binary .equal (.column (some "b") "link") (.column (some "c") "id"))⟩]

/-- The page that no page refers to is kept twice over: on the left by
the first join, which the second one drops again, and on the right by the
second one. `b.link` is the column at place 3. -/
theorem linkJoins_mean :
    ∃ chain, Chain.Means { store := ⟨[⟨"pages", pages⟩]⟩ } (some ⟨"Pages", some "a", []⟩) linkJoins
        chain ∧
      chain.rows.map chain.row =
        [[.integer 1, .integer 2, .integer 2, .integer 1, .integer 1, .integer 2],
          [.integer 2, .integer 1, .integer 1, .integer 2, .integer 2, .integer 1],
          [.null, .null, .null, .null, .integer 3, .null]] ∧
      ∃ k i, chain.Names "B" "LINK" k i ∧
        ∀ parts ∈ chain.rows, ∃ value, (Formula.column 3).eval (chain.row parts) = .ok value ∧
          chain.Holds parts k i value := by
  obtain ⟨hread, hcolumns⟩ := @Source.ofClause_means { store := ⟨[⟨"pages", pages⟩]⟩ } pages_valid
    (fun _ hcte => nomatch hcte) (some ⟨"Pages", some "a", []⟩) linkJoins
  obtain ⟨chain, hmeans, hrows⟩ := (hread _).mp rfl
  refine ⟨chain, hmeans, hrows.symm, ?_⟩
  obtain ⟨k, i, hnames, -, hvalues⟩ | ⟨-, _, houter, -⟩ :=
    hcolumns chain _ "B" "LINK" (.column 3) hmeans rfl rfl
  · exact ⟨k, i, hnames, hvalues⟩
  · cases houter

end Where

end DialectDb
