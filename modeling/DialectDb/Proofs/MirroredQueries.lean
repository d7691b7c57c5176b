/-
Queries of a text with placeholders and of its copy with values: what is
read from the copy is what is read from the text, bound. Names and hints
are the same in both; the words of query hints are, because none of them
is a placeholder.

A grammar of any depth mirrors itself, since the grammar that it is built
on does.
-/
import DialectDb.Grammar.Query
import DialectDb.Proofs.MirroredExpressions

namespace DialectDb.Copy

open Token DialectDb.Parser DialectDb.Grammar

variable {k : Copy} {g : Grammar}

-- ================================================================ names

/-- A period and a name behind it are taken, if they are there. -/
theorem mirrors_qualifier :
    k.Mirrors (do if ← accept Sign.period then some <$> identifier else pure none)
      (do if ← accept Sign.period then some <$> identifier else pure none)
      (Option.Rel Eq) := by
  refine .then mirrorsFrom_accept_period fun taken => ?_
  cases taken with
  | false => exact mirrors_pure .none
  | true =>
      exact mirrorsFrom_identifier.map fun _ _ => .some

theorem mirrorsFrom_tableName :
    k.MirrorsFrom Announced tableName tableName Eq fun _ => Unannounced := by
  refine .then mirrorsFrom_identifier fun name => ?_
  exact mirrors_iterate (fun _ _ _ => mirrors_qualifier) rfl

theorem mirrors_tableName : k.Mirrors tableName tableName Eq :=
  mirrorsFrom_tableName.weaken fun _ => Unannounced.announced

theorem mirrors_aliasName : k.Mirrors aliasName? aliasName? Eq := by
  have hname : k.Mirrors (some <$> identifier) (some <$> identifier) Eq :=
    mirrors_identifier.map fun _ _ => congrArg some
  refine .then (mirrors_accept rfl) fun _ => .ite (fun _ => hname) fun _ => ?_
  refine mirrorsFrom_peek (pure none) (pure none) (fun t ht => ?_) (fun t ht => ?_)
    (mirrors_pure rfl) fun o => MirrorsFrom.weaken ?_ fun _ => And.left
  · cases t, ht using isValue_cases <;> rfl
  · cases t, ht using isValue_cases <;> rfl
  · split
    · exact hname
    · exact mirrors_pure rfl

-- ================================================================ hints

theorem mirrors_tableHint : k.Mirrors tableHint tableHint Eq := by
  refine mirrors_next (fun t => ?_) (fun _ => fails_bind (fails_fault _))
    (fails_bind (fails_fault _)) (fails_bind (fails_fault _))
  cases t with
  | ident _ | keyword _ =>
      refine .then (mirrors_pure rfl) fun name => ?_
      refine .then (mirrors_accept rfl) fun _ => .ite (fun _ => ?_) fun _ => ?_
      · exact .then mirrors_identifier fun argument => mirrors_pure rfl
      · refine mirrorsFrom_ifPeek rfl (MirrorsFrom.weaken ?_ fun _ => And.left) (mirrors_pure rfl)
        exact .then mirrors_identifierList fun arguments => mirrors_pure rfl
  | _ => exact .of_fails (fails_bind (fails_fault _))

theorem mirrors_indexScope : k.Mirrors indexScope? indexScope? Eq := by
  refine mirrors_clause_eq rfl (mirrors_next (fun t => ?_) (fun _ => fails_fault _) (fails_fault _)
    (fails_fault _))
  split
  · exact mirrors_pure rfl
  · exact .then (mirrors_expect rfl) fun _ => mirrors_pure rfl
  · exact .then (mirrors_expect rfl) fun _ => mirrors_pure rfl
  · exact .of_fails (fails_fault _)

theorem mirrors_indexName : k.Mirrors indexName indexName Eq := by
  refine mirrors_next (fun t => ?_) (fun _ => fails_fault _) (fails_fault _) (fails_fault _)
  split
  · exact mirrors_pure rfl
  · exact mirrors_pure rfl
  · exact .of_fails (fails_fault _)

theorem mirrors_indexNames : k.Mirrors indexNames indexNames Eq := by
  refine mirrors_iterate (fun names _ heq => ?_) rfl
  subst heq
  refine .then (mirrors_accept rfl) fun _ => .ite (fun _ => mirrors_pure .none) fun _ => ?_
  refine .when (mirrors_expect rfl) ?_
  exact .then mirrors_indexName fun name => mirrors_pure (.some rfl)

theorem mirrors_indexHint : k.Mirrors indexHint indexHint Eq := by
  refine mirrors_next (fun t => ?_) (fun _ => fails_bind (fails_fault _))
    (fails_bind (fails_fault _)) (fails_bind (fails_fault _))
  split
  case h_4 => exact .of_fails (fails_bind (fails_fault _))
  all_goals
    refine .then (mirrors_pure rfl) fun action => ?_
    refine mirrors_next (fun t => ?_) (fun _ => fails_bind (fails_fault _))
      (fails_bind (fails_fault _)) (fails_bind (fails_fault _))
    split
    case h_3 => exact .of_fails (fails_bind (fails_fault _))
    all_goals
      refine .then mirrors_indexScope fun scope => ?_
      refine .then (mirrors_expect rfl) fun _ => ?_
      exact .then mirrors_indexNames fun indexes => mirrors_pure rfl

theorem mirrors_tableHints : k.Mirrors tableHints tableHints Eq := by
  refine mirrors_iterate (fun hints _ heq => ?_) rfl
  subst heq
  have hlist : k.Mirrors
      (do pure (some (hints ++ (← parenthesized (commaList tableHint)))))
      (do pure (some (hints ++ (← parenthesized (commaList tableHint))))) (Option.Rel Eq) :=
    .then (mirrors_parenthesized (mirrors_commaList_eq mirrors_tableHint)) fun _ =>
      mirrors_pure (.some rfl)
  have hindex : k.Mirrors
      (do
        require (spellsHints .index) .indexHints
        pure (some (hints ++ [← indexHint])))
      (do
        require (spellsHints .index) .indexHints
        pure (some (hints ++ [← indexHint]))) (Option.Rel Eq) :=
    .then (mirrors_require _ _) fun _ => .then mirrors_indexHint fun _ => mirrors_pure (.some rfl)
  refine mirrorsFrom_peek (pure none) (pure none) (fun t ht => ?_) (fun t ht => ?_)
    (mirrors_pure .none) fun o => ?_
  · cases t, ht using isValue_cases <;> rfl
  · cases t, ht using isValue_cases <;> rfl
  · split
    · exact .then (mirrorsFrom_require _ _) fun _ => mirrors_next_head rfl hlist
    · exact .then (mirrorsFrom_require _ _) fun _ => hlist.weaken fun _ => And.left
    · exact hindex.weaken fun _ => And.left
    · exact hindex.weaken fun _ => And.left
    · exact hindex.weaken fun _ => And.left
    · exact (mirrors_pure .none).weaken fun _ => And.left

/-- The words of query hints are the same in both. The parenthesis that
ends them is reached before the tokens run out. -/
theorem mirrorsFrom_queryHintWords :
    k.MirrorsFrom (fun tokens => Unannounced tokens ∧ wordsPlain tokens) queryHintWords
      queryHintWords Eq fun _ => Unannounced := by
  refine MirrorsFrom.weaken (mirrorsFrom_iterate
    (P := fun count tokens => tokens.length < count ∧ Announced tokens ∧ wordsPlain tokens)
    (fun count state _ heq => ?_) ?_ rfl)
    fun tokens h => ⟨Nat.lt_succ_self _, h.1.announced, h.2⟩
  · subst heq
    obtain ⟨hints, words⟩ := state
    refine mirrorsFrom_next (fun t ht => ?_) fun t tokens ht hP => ?_
    · have hbehind : t ≠ .sign .closeParen → ∀ tokens,
          ((t :: tokens).length < count + 1 ∧ Announced (t :: tokens) ∧ wordsPlain (t :: tokens)) →
            tokens.length < count ∧ Announced tokens ∧ wordsPlain tokens := by
        rintro hclose tokens ⟨hlength, hannounced, hplain⟩
        refine ⟨Nat.lt_of_succ_lt_succ hlength, ?_, ?_⟩
        · have htail := hannounced.tail
          by_cases hperiod : t = .sign .period
          · rwa [decide_eq_true hperiod] at htail
          · exact (hannounced.tail_unannounced hperiod).announced
        · rw [wordsPlain_cons, beq_eq_false_iff_ne.mpr hclose, Bool.false_or] at hplain
          exact (Bool.and_eq_true_iff.mp hplain).2
      split
      · exact mirrorsFrom_pure .none fun tokens h => h.2.1.tail_unannounced nofun
      · exact mirrorsFrom_pure (.some rfl) (hbehind nofun)
      · next hclose _ => exact mirrorsFrom_pure (.some rfl) (hbehind hclose)
    · have hplain := hP.2.2
      have hclose : t ≠ .sign .closeParen := fun heq => by
        rw [heq] at ht
        cases ht
      rw [wordsPlain_cons, beq_eq_false_iff_ne.mpr hclose, ht] at hplain
      cases hplain
  · rintro tokens ⟨hlength, -⟩
    exact absurd hlength (Nat.not_lt_zero _)

theorem mirrors_queryHints : k.Mirrors queryHints queryHints Eq := by
  -- Behind OPTION the words are known to be plain if a parenthesis follows.
  have haccept : k.MirrorsFrom Unannounced (accept Keyword.OPTION) (accept Keyword.OPTION) Eq
      fun taken tokens => Unannounced tokens ∧
        (taken → tokens.head? = some (.sign .openParen) → wordsPlain tokens) := by
    refine mirrorsFrom_accept (t := .keyword .OPTION) Bool.false_ne_true (fun tokens h => ?_)
      fun tokens h => ⟨h, nofun⟩
    refine ⟨h.announced.tail_unannounced nofun, fun _ hhead => ?_⟩
    have hopens := (Bool.and_eq_true_iff.mp h).1
    rw [hhead] at hopens
    exact hopens
  refine .then (.then haccept fun taken => ?_) fun hints => mirrors_pure rfl
  cases taken with
  | false => exact mirrorsFrom_pure rfl fun _ => And.left
  | true =>
      refine MirrorsFrom.map ?_ fun _ _ => congrArg some
      refine .then (mirrorsFrom_require _ _) fun _ => ?_
      refine .then (mirrorsFrom_expect Bool.false_ne_true) fun _ => ?_
      refine .then (mirrorsFrom_queryHintWords.weaken fun tokens h => ?_) fun words => ?_
      · have hplain := h.2 rfl rfl
        rw [wordsPlain_cons] at hplain
        exact ⟨h.1.announced.tail_unannounced nofun, hplain⟩
      · exact .ite (fun _ => .of_fails (fails_fault _)) fun _ => mirrors_pure rfl

-- =============================================================== tables

theorem mirrors_tableRef : k.Mirrors tableRef tableRef Eq := by
  refine .then mirrors_tableName fun name => ?_
  refine .then mirrors_aliasName fun aliasName => ?_
  exact .then mirrors_tableHints fun hints => mirrors_pure rfl

theorem mirrors_joinKind : k.Mirrors joinKind? joinKind? Eq := by
  have hjoin : ∀ kind : JoinKind, k.Mirrors
      (do
        expect Keyword.JOIN
        pure (some kind))
      (do
        expect Keyword.JOIN
        pure (some kind)) Eq :=
    fun _ => .then (mirrors_expect rfl) fun _ => mirrors_pure rfl
  refine .then (mirrors_accept rfl) fun _ => .ite (fun _ => mirrors_pure rfl) fun _ => ?_
  refine .then (mirrors_accept rfl) fun _ => .ite (fun _ => mirrors_pure rfl) fun _ => ?_
  refine .then (mirrors_accept rfl) fun _ => .ite (fun _ => hjoin .cross) fun _ => ?_
  refine .then (mirrors_accept rfl) fun _ => .ite (fun _ => hjoin .inner) fun _ => ?_
  refine .then (mirrors_accept rfl) fun _ => .ite (fun _ => ?_) fun _ => ?_
  · exact .then (mirrors_skipOver rfl) fun _ => hjoin .left
  refine .then (mirrors_accept rfl) fun _ => .ite (fun _ => ?_) fun _ => mirrors_pure rfl
  exact .then (mirrors_skipOver rfl) fun _ => hjoin .right

variable (hg : MirrorsGrammar g)
include hg

theorem mirrors_join :
    k.Mirrors (join? g) (join? g) (Option.Rel (Gives (Join.bind k.parameters))) := by
  refine .then mirrors_joinKind fun kind? => ?_
  cases kind? with
  | none => exact mirrors_pure .none
  | some kind =>
      refine .then mirrors_tableRef fun table => .ite (fun _ => ?_) fun _ => ?_
      · exact mirrors_pure (.some rfl)
      · refine .then (mirrors_expect rfl) fun _ => ?_
        refine .bind (hg.expression k 0) fun e e' he => mirrors_pure (.some ?_)
        exact Result.bind_eq_ok.mpr ⟨_, (Expr.bindOption_eq_ok _).mpr (.some he), rfl⟩

theorem mirrors_joins :
    k.Mirrors (joins g) (joins g) (List.Forall₂ (Gives (Join.bind k.parameters))) := by
  refine mirrors_iterate (fun joins joins' hjoins => ?_) .nil
  refine .bind (mirrors_join hg) fun join join' hjoin => mirrors_pure ?_
  cases hjoin with
  | none => exact .none
  | some hjoin => exact .some (List.rel_append hjoins (.cons hjoin .nil))

-- ============================================================== clauses

theorem mirrors_whereClause :
    k.Mirrors (whereClause g) (whereClause g) (Option.Rel k.Binds) :=
  mirrors_clause rfl (hg.expression k 0)

theorem mirrors_topClause : k.Mirrors (topClause g) (topClause g) (Option.Rel k.Binds) :=
  mirrors_clause rfl (.then (mirrors_require _ _) fun _ => mirrors_operand hg)

theorem mirrors_selectItem :
    k.Mirrors (selectItem g) (selectItem g) (Gives (SelectItem.bind k.parameters)) := by
  refine .bind (hg.expression k 0) fun e e' he => ?_
  by_cases hall : e = .all
  · rw [if_pos hall, if_pos ((binds_eq_all_iff he).mpr hall)]
    exact mirrors_pure (Result.bind_eq_ok.mpr ⟨e', he, rfl⟩)
  · rw [if_neg hall, if_neg fun h => hall ((binds_eq_all_iff he).mp h)]
    refine .then mirrors_aliasName fun aliasName => mirrors_pure ?_
    exact Result.bind_eq_ok.mpr ⟨e', he, rfl⟩

theorem mirrors_groupByClause :
    k.Mirrors (groupByClause g) (groupByClause g) (List.Forall₂ k.Binds) := by
  refine .bind (mirrors_clause rfl (.then (mirrors_expect rfl) fun _ =>
    mirrors_commaList (hg.expression k 0))) fun keys keys' hkeys => mirrors_pure ?_
  cases hkeys with
  | none => exact .nil
  | some hkeys => exact hkeys

theorem mirrors_sortKey :
    k.Mirrors (sortKey g) (sortKey g) (Gives (SortKey.bind k.parameters)) := by
  refine .bind (hg.expression k 0) fun e e' he => ?_
  refine .bind (mirrors_nextMap (p := fun _ => True) (fun t ht => ?_) fun t direction h => ?_) ?_
  · cases t, ht using isValue_cases <;> rfl
  · refine ⟨?_, trivial⟩
    rintro rfl
    cases h
  · rintro direction _ ⟨rfl, -⟩
    exact mirrors_pure (Result.bind_eq_ok.mpr ⟨e', he, rfl⟩)

theorem mirrors_orderByClause :
    k.Mirrors (orderByClause g) (orderByClause g)
      (List.Forall₂ (Gives (SortKey.bind k.parameters))) := by
  refine .bind (mirrors_clause rfl (.then (mirrors_expect rfl) fun _ =>
    mirrors_commaList (mirrors_sortKey hg))) fun keys keys' hkeys => mirrors_pure ?_
  cases hkeys with
  | none => exact .nil
  | some hkeys => exact hkeys

omit hg in
theorem isSome_of_rel {α β : Type} {R : α → β → Prop} {o : Option α} {o' : Option β}
    (h : Option.Rel R o o') : o'.isSome = o.isSome := by
  cases h <;> rfl

theorem mirrors_core :
    k.Mirrors (core g) (core g) (Gives (Select.bind k.parameters)) := by
  refine .then (mirrors_expect rfl) fun _ => ?_
  refine .bind (mirrors_topClause hg) fun early early' hearly => ?_
  refine .then (mirrors_accept rfl) fun distinct => ?_
  refine .when (mirrors_skipOver rfl) ?_
  dsimp only
  rw [isSome_of_rel hearly]
  refine .choose (mirrors_pure hearly) (mirrors_topClause hg) fun limit limit' hlimit => ?_
  refine .bind (mirrors_commaList (mirrors_selectItem hg)) fun columns columns' hcolumns => ?_
  refine .bind (mirrors_clause rfl (R := fun t t' : TableRef × List Join =>
    t'.1 = t.1 ∧ List.Forall₂ (Gives (Join.bind k.parameters)) t.2 t'.2)
    (.then mirrors_tableRef fun source => .bind (mirrors_joins hg) fun joins joins' hjoins =>
      mirrors_pure ⟨rfl, hjoins⟩)) fun tables tables' htables => ?_
  refine .bind (mirrors_whereClause hg) fun predicate predicate' hpredicate => ?_
  refine .bind (mirrors_groupByClause hg) fun groupBy groupBy' hgroupBy => ?_
  refine .bind (mirrors_clause rfl (hg.expression k 0)) fun having having' hhaving => ?_
  refine mirrors_pure ((Select.bind_eq_ok _).mpr ?_)
  cases htables with
  | none =>
      exact ⟨.nil, rfl, hcolumns, rfl, .nil, hpredicate, hgroupBy, hhaving, .nil, .nil, .none,
        hlimit, rfl⟩
  | some htables =>
      exact ⟨.nil, rfl, hcolumns, congrArg some htables.1, htables.2, hpredicate, hgroupBy,
        hhaving, .nil, .nil, .none, hlimit, rfl⟩

-- =============================================================== paging

/-- The paging of the copy is that of the text, bound. -/
def BindsPaging (k : Copy) (p p' : Paging) : Prop :=
  Option.Rel k.Binds p.offset p'.offset ∧ Option.Rel k.Binds p.limit p'.limit

/-- The rest of FETCH behind the count. -/
private def rowsOnly (count : Expr) : Parser Expr := do
  match ← next with
  | .keyword .ROW | .keyword .ROWS => pure ()
  | found => fault (.expected "ROW or ROWS" found)
  expect Keyword.ONLY
  pure count

omit hg in
private theorem mirrors_rowsOnly {count count' : Expr} (h : k.Binds count count') :
    k.Mirrors (rowsOnly count) (rowsOnly count') k.Binds := by
  refine mirrors_next (fun t => ?_) (fun _ => fails_bind (fails_fault _))
    (fails_bind (fails_fault _)) (fails_bind (fails_fault _))
  split
  case h_3 => exact .of_fails (fails_bind (fails_fault _))
  all_goals exact .then (mirrors_expect rfl) fun _ => mirrors_pure h

theorem mirrors_fetchCount : k.Mirrors (fetchCount g) (fetchCount g) k.Binds := by
  refine mirrors_next (fun t => ?_) (fun _ => fails_bind (fails_fault _))
    (fails_bind (fails_fault _)) (fails_bind (fails_fault _))
  split
  case h_3 => exact .of_fails (fails_bind (fails_fault _))
  all_goals
    refine mirrorsFrom_peek (g.expression 0 >>= rowsOnly) (g.expression 0 >>= rowsOnly)
      (fun t ht => ?_) (fun t ht => ?_) ?_ fun o => MirrorsFrom.weaken ?_ fun _ => And.left
    · cases t, ht using isValue_cases <;> rfl
    · cases t, ht using isValue_cases <;> rfl
    · exact .bind (hg.expression k 0) fun _ _ => mirrors_rowsOnly
    · split
      · exact .bind (mirrors_pure (binds_literal _)) fun _ _ => mirrors_rowsOnly
      · exact .bind (mirrors_pure (binds_literal _)) fun _ _ => mirrors_rowsOnly
      · exact .bind (hg.expression k 0) fun _ _ => mirrors_rowsOnly

theorem mirrors_limitPaging :
    k.Mirrors (limitPaging g) (limitPaging g) k.BindsPaging := by
  refine .then (mirrors_require _ _) fun _ => ?_
  refine .bind (hg.expression k 0) fun first first' hfirst => ?_
  refine .then (mirrors_accept rfl) fun _ => .ite (fun _ => ?_) fun _ => ?_
  · refine .bind (hg.expression k 0) fun limit limit' hlimit => ?_
    exact mirrors_pure ⟨.some hfirst, .some hlimit⟩
  · refine .bind (mirrors_clause rfl (hg.expression k 0)) fun offset offset' hoffset => ?_
    exact mirrors_pure ⟨hoffset, .some hfirst⟩

theorem mirrors_offsetPaging (ordered : Bool) :
    k.Mirrors (offsetPaging g ordered) (offsetPaging g ordered) k.BindsPaging := by
  refine .bind (hg.expression k 0) fun offset offset' hoffset => ?_
  refine .then (mirrors_accept rfl) fun row => ?_
  refine .choose (mirrors_pure rfl) (mirrors_accept rfl) fun rows _ hrows => ?_
  subst hrows
  refine .ite (fun _ => ?_) fun _ => ?_
  · refine .then (mirrors_require _ _) fun _ => ?_
    refine .bind (mirrors_clause rfl (mirrors_fetchCount hg)) fun limit limit' hlimit => ?_
    refine .read (.ite (fun _ => .of_fails (fails_bind (fails_throw _))) fun _ => ?_)
    exact mirrors_pure ⟨.some hoffset, hlimit⟩
  · refine .then (mirrors_require _ _) fun _ => ?_
    refine .bind (mirrors_clause rfl (hg.expression k 0)) fun limit limit' hlimit => ?_
    exact mirrors_pure ⟨.some hoffset, hlimit⟩

theorem mirrors_fetchPaging :
    k.Mirrors (fetchPaging g) (fetchPaging g) k.BindsPaging := by
  refine .then (mirrors_require _ _) fun _ => ?_
  refine .bind (mirrors_fetchCount hg) fun limit limit' hlimit => ?_
  exact mirrors_pure ⟨.none, .some hlimit⟩

theorem mirrors_paging (ordered : Bool) :
    k.Mirrors (paging? g ordered) (paging? g ordered) (Option.Rel k.BindsPaging) := by
  refine .bind (mirrors_nextMap (p := fun paging => k.Mirrors paging paging k.BindsPaging)
    (fun t ht => ?_) fun t paging h => ?_) ?_
  · cases t, ht using isValue_cases <;> rfl
  · split at h
    · cases h
      exact ⟨nofun, mirrors_limitPaging hg⟩
    · cases h
      exact ⟨nofun, mirrors_offsetPaging hg ordered⟩
    · cases h
      exact ⟨nofun, mirrors_fetchPaging hg⟩
    · cases h
  · rintro paging? _ ⟨rfl, hpaging⟩
    cases paging? with
    | none => exact mirrors_pure .none
    | some paging => exact (hpaging paging rfl).map fun _ _ => .some

-- ================================================================= WITH

omit hg in
theorem mirrors_materialization :
    k.Mirrors materialization? materialization? Eq := by
  refine .then ?_ fun hint => .when (mirrors_require _ _) (mirrors_pure rfl)
  refine .then (mirrors_accept rfl) fun _ => .ite (fun _ => mirrors_pure rfl) fun _ => ?_
  refine .then (mirrors_accept rfl) fun _ => .ite (fun _ => ?_) fun _ => mirrors_pure rfl
  exact .then (mirrors_expect rfl) fun _ => mirrors_pure rfl

omit hg in
theorem isEmpty_of_forall₂ {α β : Type} {R : α → β → Prop} {items : List α} {items' : List β}
    (h : List.Forall₂ R items items') : items'.isEmpty = items.isEmpty := by
  cases h <;> rfl

/-- The rest of a named query behind its columns. -/
private def cteBody (g : Grammar) (recursive : Bool) (name : String) (columns : List String) :
    Parser Cte := do
  expect Keyword.AS
  let materialized ← materialization?
  let body ← parenthesized do
    let body ← g.select
    if body.ctes.isEmpty then pure body else fault (.nestedWith name)
  pure ⟨name, columns, recursive, materialized, body⟩

private theorem mirrors_cteBody (recursive : Bool) (name : String) (columns : List String) :
    k.Mirrors (cteBody g recursive name columns) (cteBody g recursive name columns)
      (Gives (Cte.bind k.parameters)) := by
  have hbody : k.Mirrors
      (do
        let body ← g.select
        if body.ctes.isEmpty then pure body else fault (.nestedWith name))
      (do
        let body ← g.select
        if body.ctes.isEmpty then pure body else fault (.nestedWith name))
      (Gives (Select.bind k.parameters)) := by
    refine .bind (hg.select k) fun q q' hq => ?_
    rw [isEmpty_of_forall₂ ((Select.bind_eq_ok _).mp hq).ctes]
    exact .ite (fun _ => mirrors_pure hq) fun _ => .of_fails (fails_fault _)
  refine .then (mirrors_expect rfl) fun _ => ?_
  refine .then mirrors_materialization fun materialized => ?_
  refine .bind (mirrors_parenthesized hbody) fun body body' hbody => mirrors_pure ?_
  exact Result.bind_eq_ok.mpr ⟨body', hbody, rfl⟩

theorem mirrors_cte (recursive : Bool) :
    k.Mirrors (cte g recursive) (cte g recursive) (Gives (Cte.bind k.parameters)) := by
  refine .then mirrors_identifier fun name => mirrorsFrom_ifPeek rfl ?_ ?_
  · refine MirrorsFrom.weaken ?_ fun _ => And.left
    exact .then mirrors_identifierList fun columns => mirrors_cteBody hg recursive name columns
  · exact .then (mirrors_pure rfl) fun columns => mirrors_cteBody hg recursive name columns

theorem mirrors_withClause :
    k.Mirrors (withClause g) (withClause g) (List.Forall₂ (Gives (Cte.bind k.parameters))) := by
  refine .bind (mirrors_clause rfl (R := List.Forall₂ (Gives (Cte.bind k.parameters))) ?_)
    fun ctes ctes' hctes => mirrors_pure ?_
  · refine .then (mirrors_require _ _) fun _ => ?_
    refine .then (mirrors_accept rfl) fun recursive => ?_
    exact .when (mirrors_require _ _) (mirrors_commaList (mirrors_cte hg recursive))
  · cases hctes with
    | none => exact .nil
    | some hctes => exact hctes

-- ============================================================== queries

theorem mirrors_unions :
    k.Mirrors (unions g) (unions g) (List.Forall₂ (Gives (UnionBranch.bind k.parameters))) := by
  refine mirrors_iterate (fun branches branches' hbranches => ?_) .nil
  refine .then (mirrors_accept rfl) fun _ => .ite (fun _ => ?_) fun _ => mirrors_pure .none
  refine .then (mirrors_accept rfl) fun all => ?_
  refine .bind (mirrors_core hg) fun q q' hq => mirrors_pure (.some ?_)
  exact List.rel_append hbranches (.cons (Result.bind_eq_ok.mpr ⟨q', hq, rfl⟩) .nil)

theorem mirrors_selectWith :
    k.Mirrors (selectWith g) (selectWith g) (Gives (Select.bind k.parameters)) := by
  refine .bind (mirrors_withClause hg) fun ctes ctes' hctes => ?_
  refine .bind (mirrors_core hg) fun first first' hfirst => ?_
  refine .bind (mirrors_unions hg) fun unions unions' hunions => ?_
  refine .bind (mirrors_orderByClause hg) fun orderBy orderBy' horderBy => ?_
  have hparts := (Select.bind_eq_ok _).mp hfirst
  have hend : ∀ q q' : Select, q.bind k.parameters = .ok q' →
      k.Mirrors (do pure { q with queryHints := ← queryHints })
        (do pure { q' with queryHints := ← queryHints }) (Gives (Select.bind k.parameters)) := by
    intro q q' hq
    refine .then mirrors_queryHints fun hints => mirrors_pure ((Select.bind_eq_ok _).mpr ?_)
    exact { (Select.bind_eq_ok _).mp hq with queryHints := rfl }
  dsimp only
  rw [isEmpty_of_forall₂ horderBy, isSome_of_rel hparts.limit]
  refine .bind (mirrors_paging hg _) fun paging paging' hpaging => ?_
  cases hpaging with
  | none =>
      refine .bind (mirrors_pure ((Select.bind_eq_ok _).mpr ?_)) hend
      exact { hparts with ctes := hctes, unions := hunions, orderBy := horderBy }
  | some hpaging =>
      refine .ite (fun _ => .of_fails (fails_bind (fails_throw _))) fun _ => ?_
      refine .bind (mirrors_pure ((Select.bind_eq_ok _).mpr ?_)) hend
      exact { hparts with
        ctes := hctes, unions := hunions, orderBy := horderBy, offset := hpaging.1
        limit := hpaging.2 }

omit hg in
/-- Whatever its depth, a grammar reads from the copy what it reads from
the text, bound. -/
theorem mirrorsGrammar_ofDepth (depth : Nat) : MirrorsGrammar (ofDepth depth) := by
  induction depth with
  | zero => exact ⟨fun _ _ => .of_fails fails_ending, fun _ => .of_fails fails_ending⟩
  | succ depth ih =>
      exact ⟨fun _ min => mirrors_expressionWith ih min, fun _ => mirrors_selectWith ih⟩

end DialectDb.Copy
