/-
Every row of a result has a value for each of its columns. The rows are
made by projecting, and the values that ORDER BY needs behind those of
the columns are cut off after sorting. A UNION takes no branch with
another number of columns.
-/
import DialectDb.Proofs.Enclosing
import DialectDb.Proofs.NameSafety

namespace DialectDb

namespace Rows

/-- Every row has a given number of values. -/
def HaveWidth (rows : Rows) (width : Nat) : Prop :=
  ∀ row, .ok row ∈ rows.toList → row.length = width

variable {rows : Rows} {width : Nat}

theorem haveWidth_ofList {rows : List Row} (h : ∀ row ∈ rows, row.length = width) :
    (ofList rows).HaveWidth width := by
  intro row hrow
  rw [toList_ofList] at hrow
  obtain ⟨other, hother, heq⟩ := List.mem_map.mp hrow
  cases heq
  exact h row hother

theorem HaveWidth.collect (h : rows.HaveWidth width) {read : List Row}
    (hread : rows.collect = .ok read) : ∀ row ∈ read, row.length = width := by
  intro row hrow
  apply h
  rw [collect_eq_ok.mp hread]
  exact List.mem_map_of_mem hrow

theorem haveWidth_project (formulas : List Formula) (rows : Rows) :
    (rows.project formulas).HaveWidth formulas.length := by
  intro row hrow
  rw [toList_project] at hrow
  obtain ⟨before, -, hvalues⟩ := List.mem_map.mp hrow
  obtain ⟨source, -, hvalues⟩ := Result.bind_eq_ok.mp hvalues
  exact Formula.length_evalList source hvalues

theorem HaveWidth.drop (h : rows.HaveWidth width) (count : Nat) :
    (rows.drop count).HaveWidth width := by
  intro row hrow
  rw [toList_drop] at hrow
  exact h row (List.mem_of_mem_drop hrow)

theorem HaveWidth.take (h : rows.HaveWidth width) (count : Nat) :
    (rows.take count).HaveWidth width := by
  intro row hrow
  rw [toList_take] at hrow
  exact h row (List.mem_of_mem_take hrow)

theorem mem_of_mem_distinct {rows : List Row} {row : Row} (h : row ∈ distinct rows) :
    row ∈ rows := by
  rw [distinct_eq] at h
  exact List.mem_eraseDups.mp h

end Rows

/-- Every row has a value for each column. -/
def Answer.Regular (answer : Answer) : Prop :=
  answer.rows.HaveWidth answer.columns.length

theorem mem_sortRows {keys : List OrderKey} {rows : List Row} {row : Row} :
    row ∈ sortRows keys rows ↔ row ∈ rows :=
  List.mem_mergeSort

/-- Without sort keys there are no values behind those of the columns. -/
theorem orderKeys_empty {scope : Scope} {aliases : List (Option String)} {orderBy : List SortKey}
    {before hidden : List Formula} (h : orderKeys scope aliases orderBy before = .ok ([], hidden)) :
    hidden = before := by
  cases orderBy with
  | nil =>
      cases h
      rfl
  | cons key rest =>
      obtain ⟨_, -, h⟩ := Result.bind_eq_ok.mp h
      obtain ⟨_, -, h⟩ := Result.bind_eq_ok.mp h
      cases h

/-- Ordered rows have the values of the columns only. -/
theorem haveWidth_orderRows {keys : List OrderKey} {width : Nat} (extra : Nat) {rows ordered : Rows}
    (hrows : rows.HaveWidth (width + extra)) (hextra : keys = [] → extra = 0)
    (h : orderRows keys width rows = .ok ordered) : ordered.HaveWidth width := by
  unfold orderRows at h
  split at h
  · next hempty =>
      cases h
      rw [hextra (List.isEmpty_iff.mp hempty)] at hrows
      exact hrows
  · obtain ⟨read, hread, h⟩ := Result.bind_eq_ok.mp h
    cases h
    refine Rows.haveWidth_ofList fun row hrow => ?_
    obtain ⟨full, hfull, rfl⟩ := List.mem_map.mp hrow
    rw [List.length_take, hrows.collect hread full (mem_sortRows.mp hfull)]
    exact Nat.min_eq_left (Nat.le_add_right width extra)

namespace Select

theorem output_regular {q : Select} {orderBy : List SortKey} {source : Source} {answer : Answer}
    (h : q.output orderBy source = .ok answer) : answer.Regular := by
  obtain ⟨rows, -, h⟩ := Result.bind_eq_ok.mp h
  obtain ⟨made, -, h⟩ := Result.bind_eq_ok.mp h
  obtain ⟨⟨keys, hidden⟩, hkeys, h⟩ := Result.bind_eq_ok.mp h
  obtain ⟨ordered, hordered, h⟩ := Result.bind_eq_ok.mp h
  have hwidth : ordered.HaveWidth made.flatten.length := by
    refine haveWidth_orderRows hidden.length ?_ (fun hempty => ?_) hordered
    · have hproject := rows.haveWidth_project (made.flatten.map (·.formula) ++ hidden)
      rwa [List.length_append, List.length_map] at hproject
    · subst hempty
      rw [orderKeys_empty hkeys]
      rfl
  split at h
  · obtain ⟨read, hread, h⟩ := Result.bind_eq_ok.mp h
    cases h
    show (Rows.ofList (Rows.distinct read)).HaveWidth (made.flatten.map _).length
    rw [List.length_map]
    exact Rows.haveWidth_ofList fun row hrow =>
      hwidth.collect hread row (Rows.mem_of_mem_distinct hrow)
  · cases h
    show ordered.HaveWidth (made.flatten.map _).length
    rwa [List.length_map]

theorem coreAnswer_regular {q : Select} {context : Context} {condition : Option Condition}
    {orderBy : List SortKey} {answer : Answer}
    (h : q.coreAnswer context condition orderBy = .ok answer) : answer.Regular := by
  obtain ⟨source, -, h⟩ := Result.bind_eq_ok.mp h
  obtain ⟨passed, -, h⟩ := Result.bind_eq_ok.mp h
  obtain ⟨arranged, -, h⟩ := Result.bind_eq_ok.mp h
  exact output_regular h

theorem appendBranches_width {width : Nat} {branches : List (Bool × (Unit → Result Answer))}
    (hbranches : ∀ branch ∈ branches, ∀ answer, branch.2 () = .ok answer → answer.Regular)
    {rows all : List Row} (hrows : ∀ row ∈ rows, row.length = width)
    (h : appendBranches width branches rows = .ok all) : ∀ row ∈ all, row.length = width := by
  induction branches generalizing rows with
  | nil =>
      cases h
      exact hrows
  | cons branch rest ih =>
      obtain ⟨hbranch, hrest⟩ := List.forall_mem_cons.mp hbranches
      obtain ⟨answer, hanswer, h⟩ := Result.bind_eq_ok.mp h
      obtain ⟨hwidth, h⟩ := Result.guard_eq_ok.mp h
      obtain ⟨read, hread, h⟩ := Result.bind_eq_ok.mp h
      have happended : ∀ row ∈ rows ++ read, row.length = width := by
        intro row hrow
        rcases List.mem_append.mp hrow with hrow | hrow
        · exact hrows row hrow
        · rw [← of_not_not hwidth]
          exact (hbranch answer hanswer).collect hread row hrow
      refine ih hrest (fun row hrow => happended row ?_) h
      split at hrow
      · exact hrow
      · exact Rows.mem_of_mem_distinct hrow

theorem limited_regular {columns : List String} {rows : Rows}
    (h : rows.HaveWidth columns.length) (offset : Nat) (limit : Option Nat) :
    Answer.Regular ⟨columns,
      match limit with
      | some n => (rows.drop offset).take n
      | none => rows.drop offset⟩ := by
  cases limit with
  | none => exact h.drop offset
  | some n => exact (h.drop offset).take n

theorem assemble_regular {q : Select} {context : Context} {condition : Option Condition}
    {branches : List (Bool × (Unit → Result Answer))} {answer : Answer}
    (hbranches : ∀ branch ∈ branches, ∀ answer, branch.2 () = .ok answer → answer.Regular)
    (h : q.assemble context condition branches = .ok answer) : answer.Regular := by
  unfold assemble at h
  obtain ⟨-, h⟩ := Result.guard_eq_ok.mp h
  obtain ⟨offset, -, h⟩ := Result.bind_eq_ok.mp h
  obtain ⟨limit, -, h⟩ := Result.bind_eq_ok.mp h
  dsimp only at h
  split at h
  · obtain ⟨full, hfull, h⟩ := Result.bind_eq_ok.mp h
    cases h
    exact limited_regular (coreAnswer_regular hfull) _ limit
  · obtain ⟨first, hfirst, h⟩ := Result.bind_eq_ok.mp h
    obtain ⟨read, hread, h⟩ := Result.bind_eq_ok.mp h
    obtain ⟨all, hall, h⟩ := Result.bind_eq_ok.mp h
    obtain ⟨keys, -, h⟩ := Result.bind_eq_ok.mp h
    cases h
    have hwidth := appendBranches_width hbranches
      ((coreAnswer_regular hfirst).collect hread) hall
    refine limited_regular (Rows.haveWidth_ofList fun row hrow => ?_) _ limit
    exact hwidth row (mem_sortRows.mp hrow)

end Select

mutual

theorem Select.answer_regular : ∀ (q : Select) {context : Context} {answer : Answer},
    q.answer context = .ok answer → answer.Regular
  | ⟨_, _, _, _, _, _, _, _, unions, _, _, _, _⟩, context, _, h =>
    Select.assemble_regular (UnionBranch.answers_regular unions context) h
termination_by structural q => q

theorem UnionBranch.answers_regular : ∀ (branches : List UnionBranch) (context : Context),
    ∀ branch ∈ UnionBranch.answers context branches, ∀ answer,
      branch.2 () = .ok answer → answer.Regular
  | [], _, _, h, _, _ => nomatch h
  | ⟨_, q⟩ :: rest, context, branch, hmem, answer, h => by
    rcases List.mem_cons.mp hmem with rfl | hmem
    · exact Select.answer_regular q h
    · exact UnionBranch.answers_regular rest context branch hmem answer h
termination_by structural branches => branches

end

/-- So has the result of a query with its WITH clause. -/
theorem Select.evaluate_regular {q : Select} {version : DialectVersion} {store : Store}
    {answer : Answer} (h : q.evaluate version store = .ok answer) : answer.Regular := by
  obtain ⟨ctes, -, h⟩ := Result.bind_eq_ok.mp h
  exact Select.answer_regular _ h

end DialectDb
