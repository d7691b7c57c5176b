/-
Binding parameters is the same as writing their values into the text: the
statement that is read from the copy is the one that is read from the
text, bound.
-/
import DialectDb.Dialect.Catalog
import DialectDb.Proofs.MirroredTables

namespace DialectDb.Copy

open Token DialectDb.Parser DialectDb.Grammar

variable {k : Copy} {g : Grammar}

-- =============================================================== parts

theorem optionMapM_eq_ok {α β : Type} {f : α → Result β} {o : Option α} {o' : Option β} :
    o.mapM f = .ok o' ↔ Option.Rel (Gives f) o o' := by
  cases o with
  | none => cases o' <;> simp [Result.pure_eq_ok]
  | some a => cases o' <;> simp [Result.map_eq_ok]

/-- An assignment to the same column of a bound value. -/
theorem bindsAssignment_iff {a a' : Assignment} :
    Gives (Assignment.bind k.parameters) a a' ↔
      a'.column = a.column ∧ k.Binds a.value a'.value := by
  show Assignment.bind k.parameters a = .ok a' ↔ _
  unfold Assignment.bind
  cases a
  cases a'
  simp only [Result.bind_eq_ok, Result.pure_eq_ok, Assignment.mk.injEq]
  constructor
  · rintro ⟨_, hvalue, rfl, rfl⟩
    exact ⟨rfl, hvalue⟩
  · rintro ⟨rfl, hvalue⟩
    exact ⟨_, hvalue, rfl, rfl⟩

/-- Assignments to the same columns of bound values. -/
abbrev BindsAssignments (k : Copy) : List Assignment → List Assignment → Prop :=
  List.Forall₂ (Gives (Assignment.bind k.parameters))

theorem bindList_of_bindsAssignments {as as' : List Assignment} (h : k.BindsAssignments as as') :
    Assignment.bindList k.parameters as = .ok as' :=
  Result.mapM_eq_ok.mpr h

theorem rel_insertAssignment {new new' : Assignment}
    (hnew : Gives (Assignment.bind k.parameters) new new') {as as' : List Assignment}
    (h : k.BindsAssignments as as') :
    Option.Rel k.BindsAssignments (insertAssignment? new as) (insertAssignment? new' as') := by
  have hcolumn := (bindsAssignment_iff.mp hnew).1
  induction h with
  | nil => exact .some (.cons hnew .nil)
  | @cons a a' rest rest' ha hrest ih =>
      unfold insertAssignment?
      rw [hcolumn, (bindsAssignment_iff.mp ha).1]
      split
      · exact .none
      split
      · exact .some (.cons hnew (.cons ha hrest))
      · generalize insertAssignment? new rest = inserted at ih ⊢
        generalize insertAssignment? new' rest' = inserted' at ih ⊢
        cases ih with
        | none => exact .none
        | some ih => exact .some (.cons ha ih)

/-- The value that is replaced is not bound, and neither is the one that
the copy drops. -/
theorem binds_replaceAssignment {new new' : Assignment}
    (hnew : Gives (Assignment.bind k.parameters) new new') {as as' : List Assignment}
    (h : k.BindsAssignments as as') :
    k.BindsAssignments (replaceAssignment new as) (replaceAssignment new' as') := by
  obtain ⟨hcolumn, hvalue⟩ := bindsAssignment_iff.mp hnew
  induction h with
  | nil => exact .cons hnew .nil
  | @cons a a' rest rest' ha hrest ih =>
      unfold replaceAssignment
      rw [hcolumn, (bindsAssignment_iff.mp ha).1]
      split
      · exact .cons (bindsAssignment_iff.mpr ⟨rfl, hvalue⟩) hrest
      · exact .cons ha ih

-- ================================================================= rows

theorem mirrors_columnList : k.Mirrors columnList? columnList? Eq := by
  refine mirrorsFrom_ifPeek rfl ?_ (mirrors_pure rfl)
  refine MirrorsFrom.weaken ?_ fun _ => And.left
  exact mirrors_identifierList.map fun _ _ => congrArg some

variable (hg : MirrorsGrammar g)
include hg

theorem mirrors_delete :
    k.Mirrors (delete g) (delete g) (Gives (Statement.bind k.parameters)) := by
  refine .then (mirrors_expect rfl) fun _ => ?_
  refine .then (mirrors_accept rfl) fun _ => .when (mirrors_require _ _) ?_
  refine .then mirrors_tableName fun table => ?_
  refine .bind (mirrors_whereClause hg) fun predicate predicate' h => mirrors_pure ?_
  exact Result.bind_eq_ok.mpr ⟨predicate', (Expr.bindOption_eq_ok _).mpr h, rfl⟩

theorem mirrors_valueRow :
    k.Mirrors (valueRow g) (valueRow g) (Gives (Expr.bindList k.parameters)) :=
  (mirrors_parenthesized (mirrors_commaList (hg.expression k 0))).imp (fun _ => id)
    (fun _ _ => bindList_of_forall) fun _ _ => id

/-- The rest of an assignment behind its column. -/
private def assignTo (g : Grammar) (assigned : List Assignment) (column : String) :
    Parser (List Assignment) := do
  expect Sign.equal
  let value ← g.expression 0
  match insertAssignment? ⟨column, value⟩ assigned with
  | some assigned => pure assigned
  | none => fault (.assignedTwice column)

private theorem mirrors_assignTo {as as' : List Assignment} (h : k.BindsAssignments as as')
    (column : String) :
    k.Mirrors (assignTo g as column) (assignTo g as' column) k.BindsAssignments := by
  refine .then (mirrors_expect rfl) fun _ => ?_
  refine .bind (hg.expression k 0) fun value value' hvalue => ?_
  have hnew : Gives (Assignment.bind k.parameters) ⟨column, value⟩ ⟨column, value'⟩ :=
    bindsAssignment_iff.mpr ⟨rfl, hvalue⟩
  have hrel := rel_insertAssignment hnew h
  generalize insertAssignment? ⟨column, value⟩ as = inserted at hrel ⊢
  generalize insertAssignment? ⟨column, value'⟩ as' = inserted' at hrel ⊢
  cases hrel with
  | none => exact .of_fails (fails_fault _)
  | some h => exact mirrors_pure h

theorem mirrors_assignments :
    k.Mirrors (assignments g) (assignments g) k.BindsAssignments := by
  refine mirrors_commaFold (fun as as' h => ?_) .nil
  refine .then mirrors_identifier fun first => ?_
  refine .then mirrorsFrom_accept_period fun qualified => ?_
  cases qualified with
  | false => exact .then (mirrors_pure rfl) fun column => mirrors_assignTo hg h column
  | true => exact .then mirrorsFrom_identifier fun column => mirrors_assignTo hg h column

theorem mirrors_upsertAssignments :
    k.Mirrors (upsertAssignments g) (upsertAssignments g) k.BindsAssignments := by
  refine Mirrors.upserting (mirrors_commaFold (fun as as' h => ?_) .nil)
  refine .then mirrors_identifier fun column => ?_
  refine .then (mirrors_expect rfl) fun _ => ?_
  refine .bind (hg.expression _ 0) fun value value' hvalue => mirrors_pure ?_
  have hnew : Gives (Assignment.bind k.parameters) ⟨column, value⟩ ⟨column, value'⟩ :=
    bindsAssignment_iff.mpr ⟨rfl, hvalue⟩
  exact binds_replaceAssignment hnew h

omit hg in
/-- The parts of an INSERT that are bound. -/
theorem bindsInsert_iff {i i' : Insert} :
    Statement.bind k.parameters (.insert i) = .ok (.insert i') ↔
      ∃ rows query assignments,
        List.Forall₂ (Gives (Expr.bindList k.parameters)) i.rows rows ∧
        Option.Rel (Gives (Select.bind k.parameters)) i.query query ∧
        k.BindsAssignments i.assignments assignments ∧
        { i with rows, query, assignments } = i' := by
  simp only [Statement.bind, Assignment.bindList_eq, Result.bind_eq_ok, Result.mapM_eq_ok,
    optionMapM_eq_ok, Result.pure_eq_ok, Statement.insert.injEq]
  constructor
  · rintro ⟨rows, hrows, query, hquery, assignments, hassignments, heq⟩
    exact ⟨rows, query, assignments, hrows, hquery, hassignments, heq⟩
  · rintro ⟨rows, query, assignments, hrows, hquery, hassignments, heq⟩
    exact ⟨rows, hrows, query, hquery, assignments, hassignments, heq⟩

theorem mirrors_conflictClause {i i' : Insert}
    (h : Statement.bind k.parameters (.insert i) = .ok (.insert i')) :
    k.Mirrors (conflictClause g i) (conflictClause g i') fun i i' =>
      Statement.bind k.parameters (.insert i) = .ok (.insert i') := by
  obtain ⟨rows, query, assignments, hrows, hquery, hassignments, rfl⟩ := bindsInsert_iff.mp h
  refine .then (mirrors_accept rfl) fun _ => .ite (fun _ => mirrors_pure h) fun _ => ?_
  refine mirrors_next (fun t => ?_) (fun _ => fails_fault _) (fails_fault _) (fails_fault _)
  split
  · refine .then (mirrors_require _ _) fun _ => ?_
    refine .then mirrors_columnList fun target => ?_
    refine .then (mirrors_expect rfl) fun _ => ?_
    refine .then (mirrors_accept rfl) fun _ => .ite (fun _ => mirrors_pure ?_) fun _ => ?_
    · exact bindsInsert_iff.mpr ⟨rows, query, assignments, hrows, hquery, hassignments, rfl⟩
    · refine .then (mirrors_expect rfl) fun _ => ?_
      refine .then (mirrors_expect rfl) fun _ => ?_
      refine .bind (mirrors_upsertAssignments hg) fun as as' has => mirrors_pure ?_
      exact bindsInsert_iff.mpr ⟨rows, query, as', hrows, hquery, has, rfl⟩
  · refine .then (mirrors_require _ _) fun _ => ?_
    refine .then (mirrors_expect rfl) fun _ => ?_
    refine .then (mirrors_expect rfl) fun _ => ?_
    refine .bind (mirrors_upsertAssignments hg) fun as as' has => mirrors_pure ?_
    exact bindsInsert_iff.mpr ⟨rows, query, as', hrows, hquery, has, rfl⟩
  · exact .of_fails (fails_fault _)

theorem mirrors_insert :
    k.Mirrors (insert g) (insert g) (Gives (Statement.bind k.parameters)) := by
  have hend : ∀ i i', Statement.bind k.parameters (.insert i) = .ok (.insert i') →
      k.Mirrors (.insert <$> conflictClause g i) (.insert <$> conflictClause g i')
        (Gives (Statement.bind k.parameters)) :=
    fun _ _ h => (mirrors_conflictClause hg h).map fun _ _ => id
  refine .then (mirrors_expect rfl) fun _ => ?_
  refine .then (mirrors_expect rfl) fun _ => ?_
  refine .then mirrors_tableName fun table => ?_
  refine .then mirrors_columnList fun columns => ?_
  refine .then mirrors_atQuery fun _ => .ite (fun _ => ?_) fun _ => ?_
  · refine .bind (hg.select k) fun q q' hq => .bind (mirrors_pure ?_) hend
    exact bindsInsert_iff.mpr ⟨[], some q', [], .nil, .some hq, .nil, rfl⟩
  · refine .then (mirrors_expect rfl) fun _ => ?_
    refine .bind (mirrors_commaList (mirrors_valueRow hg)) fun rows rows' hrows =>
      .bind (mirrors_pure ?_) hend
    exact bindsInsert_iff.mpr ⟨rows', none, [], hrows, .none, .nil, rfl⟩

theorem mirrors_update :
    k.Mirrors (update g) (update g) (Gives (Statement.bind k.parameters)) := by
  refine .then (mirrors_expect rfl) fun _ => ?_
  refine .then mirrors_tableName fun table => ?_
  refine .then (mirrors_expect rfl) fun _ => ?_
  refine .bind (mirrors_assignments hg) fun as as' has => ?_
  refine .bind (mirrors_whereClause hg) fun predicate predicate' h => mirrors_pure ?_
  exact Result.bind_eq_ok.mpr ⟨as', bindList_of_bindsAssignments has,
    Result.bind_eq_ok.mpr ⟨predicate', (Expr.bindOption_eq_ok _).mpr h, rfl⟩⟩

-- ================================================================ MERGE

theorem mirrors_mergeSource :
    k.Mirrors (mergeSource g) (mergeSource g) (Gives (MergeSource.bind k.parameters)) := by
  refine .then (mirrors_accept rfl) fun _ => .ite (fun _ => ?_) fun _ => ?_
  · refine .bind (hg.select k) fun q q' hq => ?_
    refine .then (mirrors_expect rfl) fun _ => ?_
    refine .then (mirrors_skipOver rfl) fun _ => ?_
    refine .then mirrors_identifier fun aliasName => mirrors_pure ?_
    exact Result.bind_eq_ok.mpr ⟨q', hq, rfl⟩
  · exact mirrors_tableRef.map fun _ _ h => h ▸ rfl

theorem mirrors_mergeAction (matched : Bool) :
    k.Mirrors (mergeAction g matched) (mergeAction g matched)
      (Gives (MergeAction.bind k.parameters)) := by
  cases matched with
  | true =>
      refine mirrors_next (fun t => ?_) (fun _ => fails_fault _) (fails_fault _) (fails_fault _)
      split
      · refine .then (mirrors_expect rfl) fun _ => ?_
        refine (mirrors_assignments hg).map fun as as' has => ?_
        exact Result.bind_eq_ok.mpr ⟨as', bindList_of_bindsAssignments has, rfl⟩
      · exact mirrors_pure rfl
      · next heq => cases heq
      · exact .of_fails (fails_fault _)
      · next heq _ => cases heq
  | false =>
      refine mirrors_next (fun t => ?_) (fun _ => fails_fault _) (fails_fault _) (fails_fault _)
      split
      · next heq => cases heq
      · next heq => cases heq
      · refine .then mirrors_columnList fun columns => ?_
        refine .then (mirrors_expect rfl) fun _ => ?_
        refine .bind (mirrors_valueRow hg) fun row row' hrow => mirrors_pure ?_
        exact Result.bind_eq_ok.mpr ⟨row', hrow, rfl⟩
      · next heq _ _ => cases heq
      · exact .of_fails (fails_fault _)

/-- The rest of a clause behind MATCHED. -/
private def mergeEnd (g : Grammar) (matched : Bool) : Parser MergeClause := do
  let condition ← clause? .AND (g.expression 0)
  expect Keyword.THEN
  pure ⟨matched, condition, ← mergeAction g matched⟩

private theorem mirrors_mergeEnd (matched : Bool) :
    k.Mirrors (mergeEnd g matched) (mergeEnd g matched)
      (Gives (MergeClause.bind k.parameters)) := by
  refine .bind (mirrors_clause rfl (hg.expression k 0)) fun condition condition' h => ?_
  refine .then (mirrors_expect rfl) fun _ => ?_
  refine .bind (mirrors_mergeAction hg matched) fun action action' haction => mirrors_pure ?_
  exact Result.bind_eq_ok.mpr ⟨condition', (Expr.bindOption_eq_ok _).mpr h,
    Result.bind_eq_ok.mpr ⟨action', haction, rfl⟩⟩

theorem mirrors_mergeClause :
    k.Mirrors (mergeClause g) (mergeClause g) (Gives (MergeClause.bind k.parameters)) := by
  refine .then (mirrors_accept rfl) fun unmatched => ?_
  refine .then (mirrors_expect rfl) fun _ => ?_
  have hend := mirrors_mergeEnd (k := k) hg !unmatched
  refine .choose (mirrors_pure rfl) (mirrors_accept rfl) fun byTarget _ heq => ?_
  subst heq
  refine .ite (fun _ => ?_) fun _ => hend
  refine .then mirrors_identifier fun name => .ite (fun _ => ?_) fun _ => hend
  exact .of_fails (fails_bind (fails_fault _))

theorem mirrors_merge :
    k.Mirrors (merge g) (merge g) (Gives (Statement.bind k.parameters)) := by
  refine .then (mirrors_expect rfl) fun _ => ?_
  refine .then (mirrors_require _ _) fun _ => ?_
  refine .then (mirrors_skipOver rfl) fun _ => ?_
  refine .then mirrors_tableRef fun target => ?_
  refine .then (mirrors_expect rfl) fun _ => ?_
  refine .bind (mirrors_mergeSource hg) fun source source' hsource => ?_
  refine .then (mirrors_expect rfl) fun _ => ?_
  refine .bind (hg.expression k 0) fun predicate predicate' hpredicate => ?_
  refine .bind (mirrors_iterate (R := List.Forall₂ (Gives (MergeClause.bind k.parameters)))
    (fun clauses clauses' h => ?_) .nil) fun clauses clauses' hclauses => ?_
  · refine .then (mirrors_accept rfl) fun _ => .ite (fun _ => ?_) fun _ => mirrors_pure .none
    refine .bind (mirrors_mergeClause hg) fun clause clause' hclause => mirrors_pure ?_
    exact .some (List.rel_append h (.cons hclause .nil))
  · dsimp only
    rw [isEmpty_of_forall₂ hclauses]
    refine .ite (fun _ => ?_) fun _ => mirrors_pure ?_
    · refine .bind mirrorsFrom_peekPosition fun _ _ _ => .of_fails (fails_bind (fails_throw _))
    · exact Result.bind_eq_ok.mpr ⟨source', hsource, Result.bind_eq_ok.mpr ⟨predicate', hpredicate,
        Result.bind_eq_ok.mpr ⟨clauses', Result.mapM_eq_ok.mpr hclauses, rfl⟩⟩⟩

-- =========================================================== statements

omit hg in
theorem mirrors_dropTable :
    k.Mirrors dropTable dropTable (Gives (Statement.bind k.parameters)) := by
  refine .then (mirrors_expect rfl) fun _ => ?_
  refine .then (mirrors_expect rfl) fun _ => ?_
  refine .then (mirrors_accept rfl) fun _ => .when (mirrors_expect rfl) ?_
  exact .then mirrors_tableName fun table => mirrors_pure rfl

theorem mirrors_query :
    k.Mirrors (.select <$> g.select) (.select <$> g.select)
      (Gives (Statement.bind k.parameters)) :=
  (hg.select k).map fun _ q' hq => Result.bind_eq_ok.mpr ⟨q', hq, rfl⟩

omit hg in
theorem unannounced_of_queryHintsPlain {tokens : List Token} (h : queryHintsPlain tokens)
    (hhead : tokens.head? ≠ some (.keyword .CREATE)) : Unannounced tokens := by
  unfold queryHintsPlain at h
  split at h
  · exact absurd rfl hhead
  · exact h

theorem mirrorsFrom_statement :
    k.MirrorsFrom (queryHintsPlain ·) (statement g) (statement g)
      (Gives (Statement.bind k.parameters)) fun _ => Unannounced := by
  refine .bind mirrorsFrom_peekPosition fun position position' _ => ?_
  refine mirrorsFrom_peek_seen fun o o' hseen => ?_
  rcases hseen with rfl | ⟨t, u, rfl, rfl, ht, -⟩
  · have hother : ∀ {x : Parser Statement}, o' ≠ some (.keyword .CREATE) →
        k.Mirrors x x (Gives (Statement.bind k.parameters)) →
        k.MirrorsFrom (fun tokens => queryHintsPlain tokens ∧ tokens.head? = o') x x
          (Gives (Statement.bind k.parameters)) fun _ => Unannounced := by
      intro x ho h
      refine h.weaken fun tokens htokens => ?_
      exact unannounced_of_queryHintsPlain htokens.1 (htokens.2 ▸ ho)
    split
    · exact .of_fails fails_ending
    · exact (mirrorsFrom_createTable hg).weaken fun _ => And.left
    · exact hother nofun mirrors_dropTable
    · exact hother nofun (mirrors_delete hg)
    · exact hother nofun (mirrors_insert hg)
    · exact hother nofun (mirrors_query hg)
    · exact hother nofun (mirrors_query hg)
    · exact hother nofun (mirrors_update hg)
    · exact hother nofun (mirrors_merge hg)
    · exact .of_fails (fails_throw _)
  · obtain ⟨name, rfl⟩ | rfl : (∃ name, t = .parameter name) ∨ t = .sign .question := by
      unfold isPlaceholder at ht
      split at ht
      · exact .inl ⟨_, rfl⟩
      · exact .inr rfl
      · cases ht
    · exact .of_fails (fails_throw _)
    · exact .of_fails (fails_throw _)

theorem mirrorsFrom_wholeStatement :
    k.MirrorsFrom (queryHintsPlain ·) (wholeStatement g) (wholeStatement g)
      (Gives (Statement.bind k.parameters)) fun _ => Announced := by
  refine .bind (mirrorsFrom_statement hg) fun s s' hs => ?_
  refine .then (mirrors_skipOver rfl) fun _ => ?_
  refine mirrorsFrom_peek_seen fun o o' hseen => ?_
  rcases hseen with rfl | ⟨t, u, rfl, rfl, -, -⟩
  · cases o' with
    | none => exact mirrorsFrom_pure hs fun _ h => h.1.announced
    | some found => exact .bind mirrorsFrom_peekPosition fun _ _ _ => .of_fails (fails_throw _)
  · exact .bind mirrorsFrom_peekPosition fun _ _ _ => .of_fails (fails_throw _)

end DialectDb.Copy

namespace DialectDb.Statement

open Token DialectDb.Grammar

/-- Reading is mirrored on a copy as a whole. -/
theorem readTokens_copy {version : DialectVersion} {size size' : Nat} {tokens tokens' : Lexer.Lexed}
    {ps : Parameters} {s : Statement}
    (hread : readTokens wholeStatement version size tokens = .ok s)
    (hhints : queryHintsPlain (tokens.lexemes.map (·.token)))
    (hfill : fill? ps 0 (tokens.lexemes.map (·.token)) = some (tokens'.lexemes.map (·.token)))
    (hfailure : tokens'.failure = tokens.failure) :
    ∃ s', s.bind ps = .ok s' ∧ readTokens wholeStatement version size' tokens' = .ok s' := by
  let k : Copy := ⟨ps, { version, failure := tokens.failure, size }, size'⟩
  let grammar := ofDepth (tokens.lexemes.length + 1)
  have hlength : tokens'.lexemes.length = tokens.lexemes.length := by
    have := fill?_length hfill
    rwa [List.length_map, List.length_map] at this
  obtain ⟨⟨s, d⟩, hperform, hpure⟩ := Result.bind_eq_ok.mp hread
  cases hpure
  obtain ⟨s', d', hperform', hbind, -, -⟩ :=
    Copy.mirrorsFrom_wholeStatement (k := k) (Copy.mirrorsGrammar_ofDepth _)
      { lexemes := tokens.lexemes } { lexemes := tokens'.lexemes } s d hhints hfill hperform
  refine ⟨s', hbind, ?_⟩
  unfold readTokens
  rw [hlength, hfailure]
  exact Result.bind_eq_ok.mpr ⟨(s', d'), hperform', rfl⟩

/-- Binding parameters is the same as writing their values into the
text, where values can be written for all placeholders and none stands
in query hints: the binding succeeds, and is what is read from the
tokens in which the values are written. In any case it fails iff some
placeholder of the statement has no parameter. -/
theorem bind_readTokens :
    (∀ (version : DialectVersion) (size : Nat) (tokens : Lexer.Lexed) (ps : Parameters)
      (s : Statement), readTokens wholeStatement version size tokens = .ok s →
      queryHintsPlain (tokens.lexemes.map (·.token)) →
      (∀ p ∈ Token.placeholders 0 (tokens.lexemes.map (·.token)),
        ∃ v, ps.lookup? p = some v ∧ v.token?.isSome) →
      ∃ s' filled, s.bind ps = .ok s' ∧
        fill? ps 0 (tokens.lexemes.map (·.token)) = some filled ∧
        ∀ size' lexemes, lexemes.map (·.token) = filled →
          readTokens wholeStatement version size' ⟨lexemes, tokens.failure⟩ = .ok s') ∧
    ∀ (ps : Parameters) (s : Statement),
      (∃ failure, s.bind ps = .error failure) ↔ ∃ p ∈ s.placeholders, ps.lookup? p = none := by
  refine ⟨fun version size tokens ps s hread hhints hvalues => ?_,
    fun ps s => (bindsAll ps s).error_iff⟩
  obtain ⟨filled, hfilled⟩ := Option.isSome_iff_exists.mp (fill?_isSome_iff.mpr hvalues)
  have hcopy : ∀ size' lexemes, lexemes.map (·.token) = filled → ∃ s', s.bind ps = .ok s' ∧
      readTokens wholeStatement version size' ⟨lexemes, tokens.failure⟩ = .ok s' := by
    rintro size' lexemes rfl
    exact readTokens_copy hread hhints hfilled rfl
  obtain ⟨s', hbind, -⟩ := hcopy 0 (filled.map (⟨0, ·⟩))
    ((List.map_map ..).trans (List.map_id filled))
  refine ⟨s', filled, hbind, hfilled, fun size' lexemes hlexemes => ?_⟩
  obtain ⟨s'', hbind', hread'⟩ := hcopy size' lexemes hlexemes
  rw [hbind] at hbind'
  cases hbind'
  exact hread'

/-- So `SELECT a FROM t WHERE a BETWEEN ? AND @top LIMIT ?, ?` is, with
values, `SELECT a FROM t WHERE a BETWEEN 3 AND 9 LIMIT 5, 1`. -/
theorem bind_readTokens_limit :
    let select (low high first second : Lexer.Lexeme) : Lexer.Lexed :=
      ⟨[⟨0, .keyword .SELECT⟩, ⟨7, .ident "a"⟩, ⟨9, .keyword .FROM⟩, ⟨14, .ident "t"⟩,
        ⟨16, .keyword .WHERE⟩, ⟨22, .ident "a"⟩, ⟨24, .keyword .BETWEEN⟩, low,
        ⟨34, .keyword .AND⟩, high, ⟨43, .keyword .LIMIT⟩, first, ⟨50, .sign .comma⟩, second],
        none⟩
    ∃ s s',
      readTokens wholeStatement ⟨.sqLite, 3⟩ 53
        (select ⟨32, .sign .question⟩ ⟨38, .parameter "top"⟩ ⟨49, .sign .question⟩
          ⟨52, .sign .question⟩) = .ok s ∧
      s.bind [⟨some "top", .null, .output⟩, ⟨none, .integer 3, .input⟩, ⟨none, .integer 5, .input⟩,
        ⟨none, .integer 1, .input⟩, ⟨some ":TOP", .integer 9, .input⟩] = .ok s' ∧
      readTokens wholeStatement ⟨.sqLite, 3⟩ 50
        (select ⟨32, .number "3"⟩ ⟨38, .number "9"⟩ ⟨46, .number "5"⟩ ⟨49, .number "1"⟩)
        = .ok s' := by
  intro select
  obtain ⟨s', filled, hbind, hfill, hread⟩ := bind_readTokens.1 ⟨.sqLite, 3⟩ 53
    (select ⟨32, .sign .question⟩ ⟨38, .parameter "top"⟩ ⟨49, .sign .question⟩
      ⟨52, .sign .question⟩)
    [⟨some "top", .null, .output⟩, ⟨none, .integer 3, .input⟩, ⟨none, .integer 5, .input⟩,
        ⟨none, .integer 1, .input⟩, ⟨some ":TOP", .integer 9, .input⟩] _ rfl rfl
    (fill?_isSome_iff.mp rfl)
  exact ⟨_, s', rfl, hbind, hread 50 _ (Option.some.inj hfill)⟩

end DialectDb.Statement
