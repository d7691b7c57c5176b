/-
The whole grammar reads alike wherever the tokens stand. A reader of the
grammar looks at tokens, at the dialect version and at what has been
counted, and at a position only to name it in a failure; so all that is
to be said of it is that its parts read alike.
-/
import DialectDb.Grammar.Statement
import DialectDb.Proofs.Displacement

namespace DialectDb.Grammar

open DialectDb.Parser

variable {R : Nat → Nat → Prop} {g : Grammar}

/-- A grammar that reads expressions and queries alike. -/
structure IsAlike (R : Nat → Nat → Prop) (g : Grammar) : Prop where
  expression : ∀ min, ReadsAlike R (g.expression min)
  select : ReadsAlike R g.select

-- =========================================================== operators

theorem alike_prefixOp (min : Nat) : ReadsAlike R (prefixOp? min) :=
  alike_nextMap _

theorem alike_infixOp (min : Nat) : ReadsAlike R (infixOp? min) := by
  refine alike_peek.then fun token => .ite (alike_peekSecond.then fun second => ?_) ?_
  · refine .ite ?_ (alike_pure rfl)
    exact alike_next.then fun _ => alike_next.then fun _ => alike_pure rfl
  · exact (alike_nextMap _).then fun _ => alike_pure rfl

theorem alike_negatable (word : Keyword) : ReadsAlike R (negatable? word) := by
  refine alike_peek.then fun token => alike_peekSecond.then fun second => .ite ?_ ?_
  · exact alike_next.then fun _ => (alike_expect _).then fun _ => alike_pure rfl
  · refine alike_peek.then fun token => .ite ?_ (alike_pure rfl)
    exact (alike_expect _).then fun _ => alike_pure rfl

theorem alike_atQuery : ReadsAlike R atQuery :=
  alike_peek.then fun _ => alike_pure rfl

section
variable (hg : IsAlike R g)
include hg

theorem alike_membership (negated : Bool) :
    ReadsAlike R (membership g negated) := by
  refine alike_parenthesized (alike_atQuery.then fun query => .ite ?_ ?_)
  · exact hg.select.then fun _ => alike_pure rfl
  · exact (alike_commaList (hg.expression 0)).then fun _ => alike_pure rfl

theorem alike_range (negated : Bool) : ReadsAlike R (range g negated) := by
  refine (hg.expression _).then fun low => (alike_expect _).then fun _ => ?_
  exact (hg.expression _).then fun high => alike_pure rfl

theorem alike_postfixOp (min : Nat) : ReadsAlike R (postfixOp? g min) := by
  refine .ite (alike_pure rfl) ((alike_negatable .IN).then fun isIn => ?_)
  split
  · exact (alike_membership hg _).map some
  refine (alike_negatable .BETWEEN).then fun isBetween => ?_
  split
  · exact (alike_range hg _).map some
  refine (alike_accept _).then fun isIs => .ite ?_ (alike_pure rfl)
  exact (alike_accept _).then fun _ => (alike_expect _).then fun _ => alike_pure rfl

-- ============================================================ operands

omit hg in
theorem alike_numberLiteral (text : String) :
    ReadsAlike R (numberLiteral text) := by
  refine .ite (.ite (alike_pure rfl) alike_fault) ?_
  split
  · exact alike_pure rfl
  · exact alike_fault

theorem alike_arguments : ReadsAlike R (arguments g) := by
  refine alike_iterate (fun args => (alike_accept _).then fun closed => ?_) []
  exact .ite (alike_pure rfl)
    (.when (alike_expect _) ((hg.expression 0).then fun _ => alike_pure rfl))

theorem alike_named (name : String) : ReadsAlike R (named g name) := by
  refine (alike_accept _).then fun called => .ite ?_ ((alike_accept _).then fun qualified => ?_)
  · exact (alike_arguments hg).then fun args => .ite alike_fault (alike_pure rfl)
  · refine .ite (alike_identifier.then fun column => alike_read fun s t h => ?_) (alike_pure rfl)
    rw [h.upsert]
    exact .ite (alike_pure rfl) (alike_pure rfl)

theorem alike_keywordOperand (word : Keyword) :
    ReadsAlike R (keywordOperand g word) := by
  unfold keywordOperand
  split
  · exact alike_pure rfl
  · exact alike_pure rfl
  · exact alike_pure rfl
  · exact (alike_parenthesized hg.select).map _
  · refine alike_read fun s t h => ?_
    rw [h.upsert]
    exact .ite ((alike_parenthesized alike_identifier).map _) (.ite (alike_pure rfl) alike_fault)

theorem alike_operand : ReadsAlike R (operand g) := by
  refine alike_next.then fun token => ?_
  split
  · exact alike_pure rfl
  · exact alike_numberLiteral _
  · exact alike_pure rfl
  · exact alike_pure rfl
  · refine alike_get fun c d h => ?_
    have hcounted : Cursor.Displaced R { c with ordinals := c.ordinals + 1 }
        { d with ordinals := d.ordinals + 1 } :=
      ⟨h.lexemes, h.position, congrArg (· + 1) h.ordinals⟩
    exact (alike_set hcounted).then fun _ =>
      alike_pure (congrArg (Expr.parameter ∘ Placeholder.positional) h.ordinals)
  · exact alike_named hg _
  · exact alike_keywordOperand hg _
  · exact (hg.expression 0).then fun e => (alike_expect _).then fun _ => alike_pure rfl
  · exact alike_fault

theorem alike_extend (min : Nat) (e : Expr) : ReadsAlike R (extend? g min e) := by
  refine (alike_postfixOp hg min).then fun test => ?_
  split
  · exact alike_pure rfl
  refine (alike_infixOp min).then fun op => ?_
  split
  · exact (hg.expression _).then fun right => alike_pure rfl
  · exact alike_pure rfl

theorem alike_expressionWith (min : Nat) :
    ReadsAlike R (expressionWith g min) := by
  refine (alike_prefixOp min).then fun op => ?_
  split
  · exact ((hg.expression _).map _).then fun first => alike_iterate (alike_extend hg min) first
  · exact (alike_operand hg).then fun first => alike_iterate (alike_extend hg min) first

end

-- ==================================================== names and hints

theorem alike_tableName : ReadsAlike R tableName := by
  refine alike_identifier.then fun name => alike_iterate (fun _ => ?_) name
  exact (alike_accept _).then fun _ => .ite (alike_identifier.map some) (alike_pure rfl)

theorem alike_aliasName : ReadsAlike R aliasName? := by
  refine (alike_accept _).then fun _ => .ite (alike_identifier.map some) ?_
  refine alike_peek.then fun token => ?_
  split
  · exact alike_identifier.map some
  · exact alike_pure rfl

theorem alike_tableHint : ReadsAlike R tableHint := by
  have hend (name : String) : ReadsAlike R (do
      if ← accept Sign.equal then
        let argument ← identifier
        pure (TableHint.table (name ++ "(" ++ argument ++ ")"))
      else if (← peek) = some (Token.sign .openParen) then
        let arguments ← identifierList
        pure (.table (name ++ "(" ++ ", ".intercalate arguments ++ ")"))
      else pure (.table name)) := by
    refine (alike_accept _).then fun _ => .ite ?_ (alike_peek.then fun _ => .ite ?_ ?_)
    · exact alike_identifier.then fun _ => alike_pure rfl
    · exact alike_identifierList.then fun _ => alike_pure rfl
    · exact alike_pure rfl
  refine alike_next.then fun token => ?_
  split
  · exact (alike_pure rfl).then hend
  · exact (alike_pure rfl).then hend
  · exact (alike_fault (S := Eq)).then hend

theorem alike_indexScope : ReadsAlike R indexScope? := by
  refine alike_clause .FOR (alike_next.then fun token => ?_)
  split
  · exact alike_pure rfl
  · exact (alike_expect _).then fun _ => alike_pure rfl
  · exact (alike_expect _).then fun _ => alike_pure rfl
  · exact alike_fault

theorem alike_indexName : ReadsAlike R indexName := by
  refine alike_next.then fun token => ?_
  split
  · exact alike_pure rfl
  · exact alike_pure rfl
  · exact alike_fault

theorem alike_indexNames : ReadsAlike R indexNames := by
  refine alike_iterate (fun names => (alike_accept _).then fun _ => ?_) []
  exact .ite (alike_pure rfl)
    (.when (alike_expect _) (alike_indexName.then fun _ => alike_pure rfl))

/-- The scope and the names of an index hint. -/
private theorem alike_indexHintNames (action : IndexAction) : ReadsAlike R (do
    let scope ← indexScope?
    expect Sign.openParen
    pure (TableHint.index action scope (← indexNames))) :=
  alike_indexScope.then fun _ => (alike_expect _).then fun _ =>
    alike_indexNames.then fun _ => alike_pure rfl

/-- What is behind the action of an index hint. -/
private theorem alike_indexHintEnd (action : IndexAction) : ReadsAlike R (do
    match ← next with
    | .keyword .INDEX | .keyword .KEY => pure ()
    | found => fault (.expected "INDEX or KEY" found)
    let scope ← indexScope?
    expect Sign.openParen
    pure (TableHint.index action scope (← indexNames))) := by
  refine alike_next.then fun token => ?_
  split
  case h_3 => exact (alike_fault (S := Eq)).then fun _ => alike_indexHintNames action
  all_goals exact alike_indexHintNames action

theorem alike_indexHint : ReadsAlike R indexHint := by
  refine alike_next.then fun token => ?_
  split
  case h_4 => exact (alike_fault (S := Eq)).then alike_indexHintEnd
  all_goals exact (alike_pure rfl).then alike_indexHintEnd

theorem alike_tableHints : ReadsAlike R tableHints := by
  have hlist (hints : List TableHint) : ReadsAlike R (do
      pure (some (hints ++ (← parenthesized (commaList tableHint))))) :=
    (alike_parenthesized (alike_commaList alike_tableHint)).then fun _ => alike_pure rfl
  have hindex (hints : List TableHint) : ReadsAlike R (do
      require (spellsHints .index) .indexHints
      pure (some (hints ++ [← indexHint]))) :=
    (alike_require _ _).then fun _ => alike_indexHint.then fun _ => alike_pure rfl
  refine alike_iterate (fun hints => alike_peek.then fun token => ?_) []
  split
  · exact (alike_require _ _).then fun _ => alike_next.then fun _ => hlist hints
  · exact (alike_require _ _).then fun _ => hlist hints
  · exact hindex hints
  · exact hindex hints
  · exact hindex hints
  · exact alike_pure rfl

theorem alike_queryHintWords : ReadsAlike R queryHintWords := by
  refine alike_iterate (fun (hints, words) => alike_next.then fun token => ?_) _
  split
  · exact alike_pure rfl
  · exact alike_pure rfl
  · exact alike_pure rfl

theorem alike_queryHints : ReadsAlike R queryHints := by
  refine alike_clauseItems ((alike_require _ _).then fun _ => (alike_expect _).then fun _ => ?_)
  exact alike_queryHintWords.then fun _ => .ite alike_fault (alike_pure rfl)

-- ==================================================== tables and clauses

theorem alike_tableRef : ReadsAlike R tableRef :=
  alike_tableName.then fun _ => alike_aliasName.then fun _ =>
    alike_tableHints.then fun _ => alike_pure rfl

theorem alike_joinKind : ReadsAlike R joinKind? := by
  have hjoin (kind : JoinKind) : ReadsAlike R (do
      expect Keyword.JOIN
      pure (some kind)) :=
    (alike_expect _).then fun _ => alike_pure rfl
  refine (alike_accept _).then fun _ => .ite (alike_pure rfl) ?_
  refine (alike_accept _).then fun _ => .ite (alike_pure rfl) ?_
  refine (alike_accept _).then fun _ => .ite (hjoin .cross) ?_
  refine (alike_accept _).then fun _ => .ite (hjoin .inner) ?_
  refine (alike_accept _).then fun _ => .ite ((alike_skipOver _).then fun _ => hjoin .left) ?_
  refine (alike_accept _).then fun _ => .ite ?_ (alike_pure rfl)
  exact (alike_skipOver _).then fun _ => hjoin .right

section
variable (hg : IsAlike R g)
include hg

theorem alike_join : ReadsAlike R (join? g) := by
  refine alike_joinKind.then fun kind => ?_
  split
  · exact alike_pure rfl
  refine alike_tableRef.then fun table => .ite (alike_pure rfl) ?_
  exact (alike_expect _).then fun _ => (hg.expression 0).then fun _ => alike_pure rfl

theorem alike_joins : ReadsAlike R (joins g) :=
  alike_iterate (fun _ => (alike_join hg).then fun _ => alike_pure rfl) []

theorem alike_whereClause : ReadsAlike R (whereClause g) :=
  alike_clause .WHERE (hg.expression 0)

theorem alike_topClause : ReadsAlike R (topClause g) :=
  alike_clause .TOP ((alike_require _ _).then fun _ => alike_operand hg)

theorem alike_selectItem : ReadsAlike R (selectItem g) :=
  (hg.expression 0).then fun _ =>
    .ite (alike_pure rfl) (alike_aliasName.then fun _ => alike_pure rfl)

theorem alike_groupByClause : ReadsAlike R (groupByClause g) :=
  alike_clauseItems ((alike_expect _).then fun _ => alike_commaList (hg.expression 0))

theorem alike_orderByClause : ReadsAlike R (orderByClause g) := by
  have hkey : ReadsAlike R (sortKey g) :=
    (hg.expression 0).then fun _ => (alike_nextMap _).then fun _ => alike_pure rfl
  exact alike_clauseItems ((alike_expect _).then fun _ => alike_commaList hkey)

theorem alike_core : ReadsAlike R (core g) := by
  refine (alike_expect _).then fun _ => (alike_topClause hg).then fun early => ?_
  refine (alike_accept _).then fun distinct => .when (alike_skipOver _) ?_
  dsimp only
  refine .choose (alike_pure rfl) (alike_topClause hg) fun limit => ?_
  refine (alike_commaList (alike_selectItem hg)).then fun columns => ?_
  have hfrom : ReadsAlike R (clause? .FROM do
      let source ← tableRef
      pure (source, ← joins g)) :=
    alike_clause .FROM (alike_tableRef.then fun _ => (alike_joins hg).then fun _ => alike_pure rfl)
  refine hfrom.then fun tables => (alike_whereClause hg).then fun predicate => ?_
  refine (alike_groupByClause hg).then fun groupBy => ?_
  exact (alike_clause .HAVING (hg.expression 0)).then fun having => alike_pure rfl

-- ============================================================== paging

omit hg in
/-- The rest of FETCH behind the count. -/
private theorem alike_rowsOnly (count : Expr) : ReadsAlike R (do
    match ← next with
    | .keyword .ROW | .keyword .ROWS => pure ()
    | found => fault (.expected "ROW or ROWS" found)
    expect Keyword.ONLY
    pure count) := by
  have honly : ReadsAlike R (do
      expect Keyword.ONLY
      pure count) :=
    (alike_expect _).then fun _ => alike_pure rfl
  refine alike_next.then fun token => ?_
  split
  case h_3 => exact (alike_fault (S := Eq)).then fun _ => honly
  all_goals exact honly

/-- The count of FETCH, which may be missing, and the rest. -/
private theorem alike_countedRows : ReadsAlike R (do
    let count ←
      match ← peek with
      | some (.keyword .ROW) | some (.keyword .ROWS) => pure (Expr.literal (.integer 1))
      | _ => g.expression 0
    match ← next with
    | .keyword .ROW | .keyword .ROWS => pure ()
    | found => fault (.expected "ROW or ROWS" found)
    expect Keyword.ONLY
    pure count) := by
  refine alike_peek.then fun token => ?_
  split
  · exact (alike_pure rfl).then alike_rowsOnly
  · exact (alike_pure rfl).then alike_rowsOnly
  · exact (hg.expression 0).then alike_rowsOnly

theorem alike_fetchCount : ReadsAlike R (fetchCount g) := by
  refine alike_next.then fun token => ?_
  split
  case h_3 => exact (alike_fault (S := Eq)).then fun _ => alike_countedRows hg
  all_goals exact alike_countedRows hg

theorem alike_limitPaging : ReadsAlike R (limitPaging g) := by
  refine (alike_require _ _).then fun _ => (hg.expression 0).then fun first => ?_
  refine (alike_accept _).then fun _ => .ite ?_ ?_
  · exact (hg.expression 0).then fun _ => alike_pure rfl
  · exact (alike_clause .OFFSET (hg.expression 0)).then fun _ => alike_pure rfl

theorem alike_offsetPaging (ordered : Bool) :
    ReadsAlike R (offsetPaging g ordered) := by
  refine (hg.expression 0).then fun offset => (alike_accept _).then fun row => ?_
  refine .choose (alike_pure rfl) (alike_accept _) fun rows => .ite ?_ ?_
  · refine (alike_require _ _).then fun _ => ?_
    refine (alike_clause .FETCH (alike_fetchCount hg)).then fun limit => ?_
    refine alike_read fun s t h => ?_
    rw [h.version]
    exact .when (alike_invalid) (alike_pure rfl)
  · refine (alike_require _ _).then fun _ => ?_
    exact (alike_clause .LIMIT (hg.expression 0)).then fun _ => alike_pure rfl

theorem alike_paging (ordered : Bool) : ReadsAlike R (paging? g ordered) := by
  have hfetch : ReadsAlike R (fetchPaging g) :=
    (alike_require _ _).then fun _ => (alike_fetchCount hg).then fun _ => alike_pure rfl
  refine (alike_nextMap_of (p := ReadsAlike R) fun t paging h => ?_).bind fun paging? _ h => ?_
  · split at h
    · cases h
      exact alike_limitPaging hg
    · cases h
      exact alike_offsetPaging hg ordered
    · cases h
      exact hfetch
    · cases h
  · obtain ⟨rfl, halike⟩ := h
    split
    · next paging => exact (halike paging rfl).map some
    · exact alike_pure rfl

-- ================================================================ WITH

omit hg in
theorem alike_materialization : ReadsAlike R materialization? := by
  have hhint : ReadsAlike R materializedHint? := by
    refine (alike_accept _).then fun _ => .ite (alike_pure rfl) ?_
    refine (alike_accept _).then fun _ => .ite ?_ (alike_pure rfl)
    exact (alike_expect _).then fun _ => alike_pure rfl
  exact hhint.then fun _ => .when (alike_require _ _) (alike_pure rfl)

theorem alike_withClause : ReadsAlike R (withClause g) := by
  have hcte (recursive : Bool) : ReadsAlike R (cte g recursive) := by
    refine alike_identifier.then fun name => alike_peek.then fun token => ?_
    refine .choose alike_identifierList (alike_pure rfl) fun columns => ?_
    refine (alike_expect _).then fun _ => alike_materialization.then fun materialized => ?_
    refine (alike_parenthesized (hg.select.then fun _ => ?_)).then fun body => alike_pure rfl
    exact .ite (alike_pure rfl) alike_fault
  refine alike_clauseItems ((alike_require _ _).then fun _ => ?_)
  exact (alike_accept _).then fun recursive =>
    .when (alike_require _ _) (alike_commaList (hcte recursive))

theorem alike_unions : ReadsAlike R (unions g) := by
  refine alike_iterate (fun branches => (alike_accept _).then fun _ => .ite ?_ (alike_pure rfl)) []
  exact (alike_accept _).then fun all => (alike_core hg).then fun _ => alike_pure rfl

theorem alike_selectWith : ReadsAlike R (selectWith g) := by
  have hend (q : Select) : ReadsAlike R (do pure { q with queryHints := ← queryHints }) :=
    alike_queryHints.then fun _ => alike_pure rfl
  refine (alike_withClause hg).then fun ctes => (alike_core hg).then fun first => ?_
  refine (alike_unions hg).then fun unions => (alike_orderByClause hg).then fun orderBy => ?_
  refine (alike_paging hg _).then fun paging? => ?_
  cases paging? with
  | none => exact (alike_pure rfl).then hend
  | some paging => exact .ite ((alike_invalid (S := Eq)).then hend) ((alike_pure rfl).then hend)

omit hg in
theorem isAlike_ofDepth (depth : Nat) : IsAlike R (ofDepth depth) := by
  induction depth with
  | zero => exact ⟨fun _ => alike_ending, alike_ending⟩
  | succ depth ih => exact ⟨alike_expressionWith ih, alike_selectWith ih⟩

end

-- ========================================================== statements

theorem alike_tableConstraint (mark : ColumnDefinition → ColumnDefinition)
    (unknown : String → Malformed) (columns : List ColumnDefinition) :
    ReadsAlike R (tableConstraint mark unknown columns) := by
  refine alike_identifierList.then fun keys => alike_foldlM (fun columns key => ?_) keys columns
  split
  · exact alike_pure rfl
  · exact alike_fault

theorem alike_typeArguments : ReadsAlike R typeArguments := by
  refine (alike_accept _).then fun _ => .ite ?_ (alike_pure rfl)
  refine (alike_commaList (alike_next.then fun token => ?_)).then fun _ => alike_expect _
  split
  · exact alike_pure rfl
  · exact alike_fault

theorem alike_setNullable (column : ColumnDefinition) (nullable : Bool) :
    ReadsAlike R (setNullable column nullable) :=
  .ite alike_fault (alike_pure rfl)

theorem alike_dropTable : ReadsAlike R dropTable := by
  refine (alike_expect _).then fun _ => (alike_expect _).then fun _ => ?_
  refine (alike_accept _).then fun ifExists => .when (alike_expect _) ?_
  exact alike_tableName.then fun _ => alike_pure rfl

theorem alike_columnList : ReadsAlike R columnList? :=
  alike_peek.then fun _ => .ite (alike_identifierList.map some) (alike_pure rfl)

section
variable (hg : IsAlike R g)
include hg

theorem alike_columnConstraint (column : ColumnDefinition) :
    ReadsAlike R (columnConstraint? g column) := by
  refine (alike_nextMap _).then fun word => ?_
  split
  · exact alike_pure rfl
  · exact (alike_expect _).then fun _ => alike_pure rfl
  · exact (alike_setNullable _ _).map some
  · exact (alike_expect _).then fun _ => (alike_setNullable _ _).map some
  · exact (hg.expression 0).then fun _ => alike_pure rfl
  · exact alike_pure rfl
  · exact alike_fault

theorem alike_columnDefinition : ReadsAlike R (columnDefinition g) := by
  refine alike_identifier.then fun name => alike_identifier.then fun typeName => ?_
  split
  · exact alike_fault
  · exact alike_typeArguments.then fun _ => alike_iterate (alike_columnConstraint hg) _

theorem alike_tableElement (columns : List ColumnDefinition) :
    ReadsAlike R (tableElement g columns) := by
  refine alike_peek.then fun token => ?_
  split
  · exact alike_next.then fun _ => (alike_expect _).then fun _ => alike_tableConstraint _ _ _
  · exact alike_next.then fun _ => alike_tableConstraint _ _ _
  · exact (alike_columnDefinition hg).then fun _ => alike_pure rfl

theorem alike_createTable : ReadsAlike R (createTable g) := by
  refine (alike_expect _).then fun _ => (alike_expect _).then fun _ => ?_
  refine alike_tableName.then fun name => ?_
  exact (alike_parenthesized (alike_commaFold (alike_tableElement hg) [])).then fun _ =>
    alike_pure rfl

theorem alike_delete : ReadsAlike R (delete g) := by
  refine (alike_expect _).then fun _ => (alike_accept _).then fun _ => .when (alike_require _ _) ?_
  exact alike_tableName.then fun _ => (alike_whereClause hg).then fun _ => alike_pure rfl

theorem alike_valueRow : ReadsAlike R (valueRow g) :=
  alike_parenthesized (alike_commaList (hg.expression 0))

/-- What is assigned to a column, which may be assigned to only once. -/
private theorem alike_assignTo (column : String) (assigned : List Assignment) : ReadsAlike R (do
    expect Sign.equal
    let value ← g.expression 0
    match insertAssignment? ⟨column, value⟩ assigned with
    | some assigned => pure assigned
    | none => fault (.assignedTwice column)) := by
  refine (alike_expect _).then fun _ => (hg.expression 0).then fun value => ?_
  split
  · exact alike_pure rfl
  · exact alike_fault

theorem alike_assignments : ReadsAlike R (assignments g) := by
  refine alike_commaFold (fun assigned => alike_identifier.then fun first => ?_) []
  exact (alike_accept _).then fun _ =>
    .choose alike_identifier (alike_pure rfl) fun column => alike_assignTo hg column assigned

theorem alike_upsertAssignments : ReadsAlike R (upsertAssignments g) := by
  refine Alike.upserting (alike_commaFold (fun assigned => ?_) [])
  exact alike_identifier.then fun _ => (alike_expect _).then fun _ =>
    (hg.expression 0).then fun _ => alike_pure rfl

theorem alike_conflictClause (i : Insert) : ReadsAlike R (conflictClause g i) := by
  refine (alike_accept _).then fun _ => .ite (alike_pure rfl) (alike_next.then fun token => ?_)
  split
  · refine (alike_require _ _).then fun _ => alike_columnList.then fun target => ?_
    refine (alike_expect _).then fun _ => (alike_accept _).then fun _ => .ite (alike_pure rfl) ?_
    exact (alike_expect _).then fun _ => (alike_expect _).then fun _ =>
      (alike_upsertAssignments hg).then fun _ => alike_pure rfl
  · refine (alike_require _ _).then fun _ => (alike_expect _).then fun _ => ?_
    exact (alike_expect _).then fun _ =>
      (alike_upsertAssignments hg).then fun _ => alike_pure rfl
  · exact alike_fault

theorem alike_insert : ReadsAlike R (insert g) := by
  have hend (i : Insert) : ReadsAlike R (Statement.insert <$> conflictClause g i) :=
    (alike_conflictClause hg i).map _
  refine (alike_expect _).then fun _ => (alike_expect _).then fun _ => ?_
  refine alike_tableName.then fun table => alike_columnList.then fun columns => ?_
  refine alike_atQuery.then fun _ => .ite ?_ ((alike_expect _).then fun _ => ?_)
  · exact hg.select.then fun _ => (alike_pure rfl).then hend
  · exact (alike_commaList (alike_valueRow hg)).then fun _ => (alike_pure rfl).then hend

theorem alike_update : ReadsAlike R (update g) := by
  refine (alike_expect _).then fun _ => alike_tableName.then fun table => ?_
  refine (alike_expect _).then fun _ => (alike_assignments hg).then fun assigned => ?_
  exact (alike_whereClause hg).then fun _ => alike_pure rfl

-- =============================================================== MERGE

theorem alike_mergeSource : ReadsAlike R (mergeSource g) := by
  refine (alike_accept _).then fun _ => .ite (hg.select.then fun q => ?_) (alike_tableRef.map _)
  exact (alike_expect _).then fun _ => (alike_skipOver _).then fun _ =>
    alike_identifier.then fun _ => alike_pure rfl

theorem alike_mergeAction (matched : Bool) : ReadsAlike R (mergeAction g matched) := by
  refine alike_next.then fun token => ?_
  split
  · exact (alike_expect _).then fun _ => (alike_assignments hg).map _
  · exact alike_pure rfl
  · exact alike_columnList.then fun _ => (alike_expect _).then fun _ =>
      (alike_valueRow hg).then fun _ => alike_pure rfl
  · exact alike_fault
  · exact alike_fault

theorem alike_mergeClause : ReadsAlike R (mergeClause g) := by
  have hend (matched : Bool) : ReadsAlike R (do
      let condition ← clause? .AND (g.expression 0)
      expect Keyword.THEN
      pure (⟨matched, condition, ← mergeAction g matched⟩ : MergeClause)) :=
    (alike_clause .AND (hg.expression 0)).then fun _ => (alike_expect _).then fun _ =>
      (alike_mergeAction hg matched).then fun _ => alike_pure rfl
  refine (alike_accept _).then fun unmatched => (alike_expect _).then fun _ => ?_
  refine .choose (alike_pure rfl) (alike_accept _) fun byTarget => .ite ?_ (hend _)
  exact alike_identifier.then fun name => .when alike_fault (hend _)

theorem alike_merge : ReadsAlike R (merge g) := by
  have hclauses : ReadsAlike R (iterate (fun clauses => do
      if ← accept Keyword.WHEN then pure (some (clauses ++ [← mergeClause g]))
      else pure none) []) :=
    alike_iterate (fun _ => (alike_accept _).then fun _ =>
      .ite ((alike_mergeClause hg).then fun _ => alike_pure rfl) (alike_pure rfl)) []
  refine (alike_expect _).then fun _ => (alike_require _ _).then fun _ => ?_
  refine (alike_skipOver _).then fun _ => alike_tableRef.then fun target => ?_
  refine (alike_expect _).then fun _ => (alike_mergeSource hg).then fun source => ?_
  refine (alike_expect _).then fun _ => (hg.expression 0).then fun predicate => ?_
  refine hclauses.then fun clauses => .ite ?_ (alike_pure rfl)
  exact alike_peekPosition.bind fun _ _ h =>
    (alike_malformed (S := Eq) h).then fun _ => alike_pure rfl

-- ======================================================== whole texts

theorem alike_statement : ReadsAlike R (statement g) := by
  refine alike_peekPosition.bind fun position position' h => alike_peek.then fun token => ?_
  split
  · exact alike_ending
  · exact alike_createTable hg
  · exact alike_dropTable
  · exact alike_delete hg
  · exact alike_insert hg
  · exact hg.select.map _
  · exact hg.select.map _
  · exact alike_update hg
  · exact alike_merge hg
  · exact alike_malformed h

theorem alike_wholeStatement : ReadsAlike R (wholeStatement g) := by
  refine (alike_statement hg).then fun s => (alike_skipOver _).then fun _ => ?_
  refine alike_peek.then fun token => ?_
  split
  · exact alike_pure rfl
  · exact alike_peekPosition.bind fun _ _ h => alike_malformed h

end

end DialectDb.Grammar

namespace DialectDb

open DialectDb.Parser in
/-- Texts that are cut into the same tokens are read as the same
statement, or with a failure that says the same. -/
theorem Statement.readTokens_displaced {α : Type} {R : Nat → Nat → Prop}
    {parser : Grammar → Parser α} (hparser : ∀ g, Grammar.IsAlike R g → ReadsAlike R (parser g))
    (version : DialectVersion) {size size' : Nat} {tokens tokens' : Lexer.Lexed}
    (hstart : R 0 0) (hsize : R size size') (h : tokens.Displaced R tokens') :
    (readTokens parser version size tokens).Displaced R
      (readTokens parser version size' tokens') := by
  have hread := hparser _ (Grammar.isAlike_ofDepth (tokens.lexemes.length + 1))
    { version, failure := tokens.failure, size }
    { version, failure := tokens'.failure, size := size' } { lexemes := tokens.lexemes }
    { lexemes := tokens'.lexemes } ⟨rfl, h.failure, hsize, rfl⟩ ⟨h.lexemes, hstart, rfl⟩
  unfold readTokens
  rw [← h.lexemes.length_eq]
  exact hread.result

end DialectDb
