/-
Rows and scopes side by side. A query keeps them apart: a scope is put
together from labels, and rows from values, at every stage anew. What
ties them is that every row has as many values as its scope has columns,
if the tables and the results of named queries that are read do.
-/
import DialectDb.Proofs.JoinedRows
import DialectDb.Proofs.Validity
import DialectDb.Proofs.Widths

namespace DialectDb

-- =========================================================== relations

/-- Every row has a value for each column. -/
def Relation.Regular (relation : Relation) : Prop :=
  ∀ row ∈ relation.rows, row.length = relation.columns.length

/-- What a query reads: valid tables, and results of named queries whose
rows have a value for each column. -/
structure Context.Regular (context : Context) : Prop where
  store : context.store.Valid
  ctes : ∀ cte ∈ context.ctes, cte.2.Regular

theorem Context.Regular.relation {context : Context} (h : context.Regular) {name : String}
    {relation : Relation} (hrelation : context.relation name = .ok relation) :
    relation.Regular := by
  unfold Context.relation at hrelation
  split at hrelation
  · next hfind =>
      cases hrelation
      exact h.ctes _ (List.mem_reverse.mp (List.mem_of_find?_eq_some hfind))
  · split at hrelation
    · next stored hstored =>
        cases hrelation
        intro row hrow
        rw [List.length_map]
        exact (h.store.tables _ (Store.find?_mem hstored)).width row hrow
    · split at hrelation
      · cases hrelation
        intro row hrow
        rw [List.mem_singleton.mp hrow]
        rfl
      · cases hrelation

/-- The result of a named query is regular under the names that it gives
to its columns. -/
theorem Cte.rename_regular {cte : Cte} {answer : Answer} (h : answer.Regular)
    {relation : Relation} (hrename : cte.rename answer = .ok relation) : relation.Regular := by
  obtain ⟨rows, hrows, hrename⟩ := Result.bind_eq_ok.mp hrename
  have hwidth := Rows.HaveWidth.collect h hrows
  split at hrename
  · cases hrename
    exact hwidth
  · split at hrename
    · next hlength =>
        cases hrename
        intro row hrow
        rw [hwidth row hrow]
        exact hlength.symm
    · cases hrename

/-- What a query with a WITH clause reads. -/
theorem Cte.evaluate_regular {version : DialectVersion} {store : Store}
    {before after : List (String × Relation)} {cte : Cte}
    (h : (⟨store, before, []⟩ : Context).Regular)
    (hevaluate : Cte.evaluate version store before cte = .ok after) :
    (⟨store, after, []⟩ : Context).Regular := by
  unfold Cte.evaluate at hevaluate
  obtain ⟨-, hevaluate⟩ := Result.guard_eq_ok.mp hevaluate
  obtain ⟨answer, hanswer, hevaluate⟩ := Result.bind_eq_ok.mp hevaluate
  obtain ⟨relation, hrelation, hevaluate⟩ := Result.bind_eq_ok.mp hevaluate
  cases hevaluate
  refine ⟨h.store, fun cte hcte => ?_⟩
  rcases List.mem_append.mp hcte with hcte | hcte
  · exact h.ctes cte hcte
  · rw [List.mem_singleton.mp hcte]
    exact Cte.rename_regular (Select.answer_regular _ hanswer) hrelation

theorem Cte.evaluateList_regular {version : DialectVersion} {store : Store} (h : store.Valid)
    {ctes : List Cte} {relations : List (String × Relation)}
    (hevaluate : ctes.foldlM (Cte.evaluate version store) [] = .ok relations) :
    (⟨store, relations, []⟩ : Context).Regular := by
  refine Result.foldlM_keeps (I := fun relations => (⟨store, relations, []⟩ : Context).Regular)
    (fun _ _ _ _ hbefore hcte => Cte.evaluate_regular hbefore hcte) ⟨h, ?_⟩ hevaluate
  exact fun cte hcte => absurd hcte List.not_mem_nil

-- ======================================================= FROM and JOIN

theorem Scope.width_ofColumns (table : String) (columns : List String) :
    (Scope.ofColumns table columns).width = columns.length :=
  List.length_map _

theorem Scope.merge_labels {s other merged : Scope} (h : s.merge other = .ok merged) :
    merged.labels = s.labels ++ other.labels := by
  unfold merge at h
  split at h
  · cases h
  · cases h
    rfl

theorem Scope.merge_width {s other merged : Scope} (h : s.merge other = .ok merged) :
    merged.width = s.width + other.width := by
  have hlabels := congrArg List.length (merge_labels h)
  rwa [List.length_append] at hlabels

namespace Source

/-- Every row is as wide as the scope. -/
def Regular (source : Source) : Prop :=
  source.rows.HaveWidth source.scope.width

theorem first_regular {context : Context} (h : context.Regular) {table : Option TableRef}
    {source : Source} (hfirst : first context table = .ok source) : source.Regular := by
  cases table with
  | none =>
      cases hfirst
      apply Rows.haveWidth_ofList
      intro row hrow
      rw [List.mem_singleton.mp hrow]
      rfl
  | some table =>
      obtain ⟨relation, hrelation, hfirst⟩ := Result.bind_eq_ok.mp hfirst
      cases hfirst
      apply Rows.haveWidth_ofList
      intro row hrow
      rw [h.relation hrelation row hrow]
      exact (Scope.width_ofColumns table.label relation.columns).symm

/-- The nested loops of a join. -/
def joining (source : Source) (kind : JoinKind) (relation : Relation)
    (predicate : Option Formula) : Joining :=
  match kind with
  | .right => { predicate, padding := source.scope.width, flipped := true }
  | kind =>
    { predicate, padding := if kind = .left then some relation.columns.length else none,
      flipped := false }

theorem joinRows_right (source : Source) (relation : Relation) (predicate : Option Formula) :
    source.joinRows .right relation predicate = source.rows.collect >>= fun read =>
      (source.joining .right relation predicate).rows read (Rows.ofList relation.rows) := rfl

theorem joinRows_eq (source : Source) {kind : JoinKind} (h : kind ≠ .right) (relation : Relation)
    (predicate : Option Formula) :
    source.joinRows kind relation predicate =
      (source.joining kind relation predicate).rows relation.rows source.rows := by
  cases kind with
  | right => exact absurd rfl h
  | _ => rfl

/-- Where the rows of a join are from: a failure stood in the place of a
row on the left; a row on the left was tried with one on the right; or
NULLs stand in for either side. -/
inductive Joined (source : Source) (relation : Relation) (predicate : Option Formula) :
    Result Row → Prop
  | failed {e : Error} (mem : .error e ∈ source.rows.toList) :
      Joined source relation predicate (.error e)
  | tried {left right : Row} {row : Result Row} (left_mem : .ok left ∈ source.rows.toList)
      (right_mem : right ∈ relation.rows)
      (trial : Joining.tried ⟨predicate, none, false⟩ (left ++ right) = some row) :
      Joined source relation predicate row
  | leftOnly {left : Row} (left_mem : .ok left ∈ source.rows.toList) :
      Joined source relation predicate
        (.ok (left ++ List.replicate relation.columns.length .null))
  | rightOnly {right : Row} (right_mem : right ∈ relation.rows) :
      Joined source relation predicate (.ok (List.replicate source.scope.width .null ++ right))

theorem joined_of_mem {source : Source} {kind : JoinKind} {relation : Relation}
    {predicate : Option Formula} {rows : Rows}
    (h : source.joinRows kind relation predicate = .ok rows) {row : Result Row}
    (hrow : row ∈ rows.toList) : source.Joined relation predicate row := by
  by_cases hkind : kind = .right
  · subst hkind
    rw [joinRows_right] at h
    obtain ⟨read, hread, h⟩ := Result.bind_eq_ok.mp h
    have hmade := Joining.made_of_mem h hrow
    rw [Rows.toList_ofList] at hmade
    cases hmade with
    | failed hmem => simp at hmem
    | tried hright hleft htrial =>
        obtain ⟨right, hright, heq⟩ := List.mem_map.mp hright
        cases heq
        refine .tried ?_ hright htrial
        rw [Rows.collect_eq_ok.mp hread]
        exact List.mem_map_of_mem hleft
    | padded hright hpadding =>
        obtain ⟨right, hright, heq⟩ := List.mem_map.mp hright
        cases heq
        cases hpadding
        exact .rightOnly hright
  · have hflipped : (source.joining kind relation predicate).flipped = false := by
      cases kind <;> first | rfl | exact absurd rfl hkind
    have hcombine (left right : Row) :
        (source.joining kind relation predicate).combine left right = left ++ right := by
      rw [Joining.combine, hflipped]
      rfl
    rw [joinRows_eq source hkind] at h
    cases Joining.made_of_mem h hrow with
    | failed hmem => exact .failed hmem
    | tried hleft hright htrial =>
        refine .tried hleft hright ?_
        rw [hcombine] at htrial
        cases kind <;> exact htrial
    | padded hleft hpadding =>
        rw [hcombine]
        cases kind <;> first | exact absurd rfl hkind | cases hpadding
        exact .leftOnly hleft

theorem Joined.length_eq {source : Source} (h : source.Regular) {relation : Relation}
    (hrelation : relation.Regular) {predicate : Option Formula} {row : Row}
    (hrow : source.Joined relation predicate (.ok row)) :
    row.length = source.scope.width + relation.columns.length := by
  generalize hresult : (.ok row : Result Row) = result at hrow
  cases hrow with
  | failed => cases hresult
  | @tried left right _ hleft hright htrial =>
      rcases Joining.eq_of_tried htrial with rfl | ⟨e, -, rfl⟩
      · cases hresult
        rw [List.length_append, h left hleft, hrelation right hright]
      · cases hresult
  | leftOnly hleft =>
      cases hresult
      rw [List.length_append, List.length_replicate, h _ hleft]
  | rightOnly hright =>
      cases hresult
      rw [List.length_append, List.length_replicate, hrelation _ hright]

theorem join_regular {context : Context} (hcontext : context.Regular) {source joined : Source}
    (h : source.Regular) {j : Join} (hjoin : source.join context j = .ok joined) :
    joined.Regular := by
  obtain ⟨relation, hrelation, hjoin⟩ := Result.bind_eq_ok.mp hjoin
  obtain ⟨scope, hmerge, hjoin⟩ := Result.bind_eq_ok.mp hjoin
  obtain ⟨predicate, -, hjoin⟩ := Result.bind_eq_ok.mp hjoin
  obtain ⟨rows, hrows, hjoin⟩ := Result.bind_eq_ok.mp hjoin
  cases hjoin
  intro row hrow
  show row.length = scope.width
  rw [Scope.merge_width hmerge, Scope.width_ofColumns]
  exact (joined_of_mem hrows hrow).length_eq h (hcontext.relation hrelation)

/-- The rows of a FROM clause are as wide as its scope. -/
theorem ofClause_regular {context : Context} (hcontext : context.Regular)
    {table : Option TableRef} {joins : List Join} {source : Source}
    (h : ofClause context table joins = .ok source) : source.Regular := by
  obtain ⟨before, hfirst, h⟩ := Result.bind_eq_ok.mp h
  exact Result.foldlM_keeps (fun _ _ _ _ hsource hjoin => join_regular hcontext hsource hjoin)
    (first_regular hcontext hfirst) h

end Source

-- =============================================================== WHERE

/-- What passes a condition is among what was there, or else is the
failure of the condition on a row that was there. -/
theorem Condition.mem_of_select {c : Condition} {source : Source} {rows : Rows}
    (h : c.select source = .ok rows) {row : Row} (hrow : .ok row ∈ rows.toList) :
    .ok row ∈ source.rows.toList := by
  unfold select at h
  split at h
  · obtain ⟨read, hread, h⟩ := Result.bind_eq_ok.mp h
    obtain ⟨mask, -, h⟩ := Result.bind_eq_ok.mp h
    cases h
    rw [Rows.toList_ofList] at hrow
    obtain ⟨other, hother, heq⟩ := List.mem_map.mp hrow
    cases heq
    rw [Rows.collect_eq_ok.mp hread]
    exact List.mem_map_of_mem (Rows.marked_subset read mask hother)
  · obtain ⟨formula, -, h⟩ := Result.bind_eq_ok.mp h
    cases h
    exact Rows.mem_of_mem_filter hrow

theorem Select.filtered_regular {condition : Option Condition} {source passed : Source}
    (h : source.Regular) (hfiltered : filtered condition source = .ok passed) :
    passed.Regular := by
  cases condition with
  | none =>
      cases hfiltered
      exact h
  | some c =>
      obtain ⟨rows, hselect, hfiltered⟩ := Result.bind_eq_ok.mp hfiltered
      cases hfiltered
      intro row hrow
      exact h row (Condition.mem_of_select hselect hrow)

end DialectDb
