/-
Queries of a text and of another spelling of it are the same, up to where
the other spelling may go on. Behind a list or an optional part the text
may be at its end, or at VALUES, and the other spelling at a comma, an
alias or a row limit, so a query may stop at a dead end.

Where nothing is proposed and what stands behind the text cannot go on
with the query, it stops at none, and all parts of it are read to the
same ends. Each lemma about a part that may stop at a dead end is said of
both cases at once.
-/
import DialectDb.Grammar.Query
import DialectDb.Proofs.RespelledExpressions

namespace DialectDb.Respelling

open DialectDb.Parser DialectDb.Grammar

variable {k : Respelling} {m : Nat} {edge : Bool} {g g' : Grammar}

/-- What may stand behind a query without a row limit, which goes on with
no part before that limit. -/
def queryEnders : List Token :=
  [.keyword .LIMIT, .keyword .OFFSET, .keyword .ON]

-- =============================================================== names

theorem follows_tableName :
    k.Follows m edge tableName tableName fun _ => ⟨false, 1⟩ := by
  have hstep : k.Follows m false
      (do if ← accept Sign.period then some <$> identifier else pure none)
      (do if ← accept Sign.period then some <$> identifier else pure none) (Exit.round false) :=
    follows_ifAccept (by decide) (.inr (not_parting (by decide)))
      (.map (follows_identifier.loosen (Nat.zero_le 1))) (follows_pure nofun rfl)
  exact follows_identifier.then fun name => follows_iterate (fun _ => hstep) name

/-- No alias is known where nothing is proposed. -/
theorem follows_aliasName (hk : edge = true ∨ k.Ends queryEnders) :
    k.Follows m edge aliasName? aliasName? fun _ => ⟨edge, 0⟩ := by
  have hname {p : Bool} {n : Nat} :
      k.Follows n p (some <$> identifier) (some <$> identifier) fun _ => ⟨edge, 0⟩ :=
    .map (follows_identifier.loosen (Nat.zero_le 1))
  refine follows_ifAccept (by decide) (.inr (not_parting (by decide))) hname ?_
  refine follows_peek (fun o => ?_) (hk.imp_right fun hends o o' hparted => ?_)
  · rcases o with _ | t
    · exact follows_pure id rfl
    · cases t with
      | ident name => exact hname
      | _ => exact follows_pure id rfl
  · obtain ⟨rfl, hhead⟩ := hends.parted hparted
    rcases o' with _ | t
    · exact follows_pure id rfl
    · have hmem := hhead t rfl
      simp only [queryEnders, List.mem_cons, List.not_mem_nil, or_false] at hmem
      rcases hmem with rfl | rfl | rfl <;> exact follows_pure id rfl

-- =============================================================== hints

theorem follows_indexScope :
    k.Follows m false indexScope? indexScope? fun _ => ⟨false, 0⟩ := by
  refine follows_clause (by decide) (.inr (not_parting (by decide))) ?_
  refine follows_next (Copy.fails_fault _) fun t => ?_
  split
  · exact follows_pure nofun rfl
  · exact (follows_expect (by decide)).then fun _ => follows_pure nofun rfl
  · exact (follows_expect (by decide)).then fun _ => follows_pure nofun rfl
  · exact .of_fails (Copy.fails_fault _)

theorem follows_indexName :
    k.Follows m false indexName indexName fun _ => ⟨false, 1⟩ := by
  refine follows_next (Copy.fails_fault _) fun t => ?_
  split
  · exact follows_pure nofun rfl
  · exact follows_pure nofun rfl
  · exact .of_fails (Copy.fails_fault _)

theorem follows_indexNames :
    k.Follows m false indexNames indexNames fun _ => ⟨false, 0⟩ := by
  refine follows_iterate (fun names => ?_) []
  have hitem : k.Follows m false (do pure (some (names ++ [← indexName])))
      (do pure (some (names ++ [← indexName]))) (Exit.round false) :=
    follows_indexName.then fun name => follows_pure nofun rfl
  refine follows_ifAccept (by decide) (.inr (not_parting (by decide)))
    (follows_pure nofun rfl) ?_
  exact .when ((follows_expect (by decide)).loosen (Nat.zero_le 1)) hitem

theorem follows_indexHint :
    k.Follows m edge indexHint indexHint fun _ => ⟨false, 1⟩ := by
  refine follows_next (Copy.fails_bind (Copy.fails_fault _)) fun t => ?_
  split
  case h_4 => exact .of_fails (Copy.fails_bind (Copy.fails_fault _))
  all_goals
    refine .pure_bind (follows_next (Copy.fails_bind (Copy.fails_fault _)) fun t => ?_)
    split
    case h_3 => exact .of_fails (Copy.fails_bind (Copy.fails_fault _))
    all_goals
      refine follows_indexScope.then fun scope => ?_
      refine (follows_expect (by decide)).then fun _ => ?_
      exact follows_indexNames.then fun names => follows_pure nofun rfl

/-- Table hints are turned away, so that only index hints are read. -/
theorem follows_tableHints :
    k.Follows m edge tableHints tableHints fun _ => ⟨edge, 0⟩ := by
  have hstyle : spellsHints .table k.around.version = false := decide_eq_false k.hints
  have hindex (hints : List TableHint) : k.Follows m edge (do
        require (spellsHints .index) .indexHints
        pure (some (hints ++ [← indexHint])))
      (do
        require (spellsHints .index) .indexHints
        pure (some (hints ++ [← indexHint]))) (Exit.round edge) :=
    (follows_require _ _).then fun _ => follows_indexHint.then fun hint => follows_pure nofun rfl
  refine follows_iterate (fun hints => ?_) []
  refine follows_peek_else (y := pure none) rfl rfl (by simp [enders]) fun o => ?_
  split
  · exact follows_require_false hstyle
  · exact follows_require_false hstyle
  · exact hindex hints
  · exact hindex hints
  · exact hindex hints
  · exact follows_pure id rfl

/-- So are query hints. -/
theorem follows_queryHints :
    k.Follows m edge queryHints queryHints fun _ => ⟨edge, 0⟩ := by
  have hstyle : spellsHints .table k.around.version = false := decide_eq_false k.hints
  refine (follows_clause (by decide) (.inr (not_parting (by decide)))
    (follows_require_false hstyle)).then fun hints => ?_
  exact follows_pure id rfl

-- ============================================================== tables

variable (hk : edge = true ∨ k.Ends queryEnders)
include hk

/-- A list in a query stops where the other spelling has another comma. -/
theorem not_parting_comma : edge = true ∨ ¬k.Parting (.sign .comma) :=
  hk.imp_right fun hends => hends.not_parting (by decide)

theorem follows_tableRef :
    k.Follows m false tableRef tableRef fun _ => ⟨edge, 1⟩ := by
  refine follows_tableName.then fun name => ?_
  refine Follows.then ((follows_aliasName hk).inside) fun aliasName => ?_
  exact follows_tableHints.then fun hints => follows_pure id rfl

/-- How a table is joined. Where the other spelling has another comma, it
may be joined only there. -/
theorem follows_joinKind :
    k.Follows m edge joinKind? joinKind? (Exit.found edge) := by
  have hjoin {n : Nat} (kind : JoinKind) : k.Follows n false
      (do expect Keyword.JOIN; pure (some kind)) (do expect Keyword.JOIN; pure (some kind))
      fun o => (Exit.found edge o).behind 1 :=
    (follows_expect (by decide)).then fun _ => follows_pure nofun rfl
  have houter {n : Nat} (kind : JoinKind) : k.Follows n false
      (do skipOver Keyword.OUTER; expect Keyword.JOIN; pure (some kind))
      (do skipOver Keyword.OUTER; expect Keyword.JOIN; pure (some kind))
      fun o => (Exit.found edge o).behind 1 :=
    (follows_skipOver (by decide) (.inr (not_parting (by decide)))).then fun _ => hjoin kind
  have hother {t : Token} (ht : t ∉ .ident "excluded" :: enders) : edge = true ∨ ¬k.Parting t :=
    .inr (not_parting ht)
  refine follows_ifAccept (by decide) (not_parting_comma hk) (follows_pure nofun rfl) ?_
  refine follows_ifAccept (by decide) (hother (by decide)) (follows_pure nofun rfl) ?_
  refine follows_ifAccept (by decide) (hother (by decide)) (hjoin .cross) ?_
  refine follows_ifAccept (by decide) (hother (by decide)) (hjoin .inner) ?_
  refine follows_ifAccept (by decide) (hother (by decide)) (houter .left) ?_
  refine follows_ifAccept (by decide) (hother (by decide)) (houter .right) ?_
  exact follows_pure id rfl

variable (hg : k.FollowsGrammar m g g')
include hg

theorem follows_join :
    k.Follows m edge (join? g) (join? g') (Exit.round edge) := by
  refine (follows_joinKind hk).then fun kind? => ?_
  cases kind? with
  | none => exact follows_pure id rfl
  | some kind =>
      refine (follows_tableRef hk).then fun table => .ite (fun _ => follows_pure id rfl) fun _ => ?_
      refine (follows_expect (by decide)).then fun _ => ?_
      exact (hg.expression 0).then fun e => follows_pure nofun rfl

theorem follows_joins :
    k.Follows m edge (joins g) (joins g') fun _ => ⟨edge, 0⟩ := by
  refine follows_iterate (fun joins => ?_) []
  refine (follows_join hk hg).then fun join? => ?_
  cases join? with
  | none => exact follows_pure id rfl
  | some join => exact follows_pure id rfl

-- ============================================================= clauses

omit hk in
/-- A clause that is an expression. -/
theorem follows_clause_expression {word : Keyword} (hvalues : word ≠ .VALUES)
    (h : edge = true ∨ ¬k.Parting (.keyword word)) :
    k.Follows m edge (clause? word (g.expression 0)) (clause? word (g'.expression 0))
      fun _ => ⟨edge, 0⟩ :=
  follows_clause hvalues h (((hg.expression 0).mono (Nat.sub_le m 1)).loosen (Nat.zero_le 1))

omit hk in
theorem follows_whereClause :
    k.Follows m edge (whereClause g) (whereClause g') fun _ => ⟨edge, 0⟩ :=
  follows_clause_expression hg (by decide) (.inr (not_parting (by decide)))

omit hk in
theorem follows_topClause :
    k.Follows m false (topClause g) (topClause g') fun _ => ⟨false, 0⟩ := by
  refine follows_clause (by decide) (.inr (not_parting (by decide))) ?_
  refine (follows_require _ _).then fun _ => ?_
  exact ((follows_operand hg).mono (by omega)).loosen (Nat.zero_le 1)

/-- A selected expression, and its alias. -/
theorem follows_selectItem :
    k.Follows m false (selectItem g) (selectItem g') fun _ => ⟨edge, 1⟩ := by
  refine (hg.expression 0).then fun e => .ite (fun _ => follows_pure nofun rfl) fun _ => ?_
  exact (follows_aliasName hk).inside.then fun aliasName => follows_pure id rfl

omit hg in
/-- A list of keys behind GROUP BY or ORDER BY. -/
theorem follows_keys {α : Type} {x x' : Parser α} {word : Keyword} (hvalues : word ≠ .VALUES)
    (hparting : ¬k.Parting (.keyword word)) (hx : k.Follows m false x x' fun _ => ⟨edge, 1⟩) :
    k.Follows m edge
      (do
        let keys? ← clause? word do
          expect Keyword.BY
          commaList x
        pure (keys?.getD []))
      (do
        let keys? ← clause? word do
          expect Keyword.BY
          commaList x'
        pure (keys?.getD [])) fun _ => ⟨edge, 0⟩ := by
  have hkeys : k.Follows (m - 1) false (commaList x) (commaList x') fun _ => ⟨edge, 0⟩ :=
    (follows_commaList (not_parting_comma hk) hx).weaken (Nat.sub_le m 1) id fun _ =>
      ⟨id, Nat.zero_le 1⟩
  refine (follows_clause hvalues (.inr hparting) ?_).then fun keys? => follows_pure id rfl
  exact (follows_expect (by decide)).then fun _ => hkeys

theorem follows_groupByClause :
    k.Follows m edge (groupByClause g) (groupByClause g') fun _ => ⟨edge, 0⟩ :=
  follows_keys hk (by decide) (not_parting (by decide))
    ((hg.expression 0).loosen (Nat.le_refl 1))

omit hk in
theorem follows_sortKey :
    k.Follows m false (sortKey g) (sortKey g') fun _ => ⟨false, 1⟩ := by
  refine (hg.expression 0).then fun e => ?_
  refine (follows_nextMap rfl (.inr fun t ht => ?_)).then fun direction? => ?_
  · rcases ht.eq with rfl | rfl | rfl | rfl | rfl | rfl <;> rfl
  · cases direction? <;> exact follows_pure nofun rfl

theorem follows_orderByClause :
    k.Follows m edge (orderByClause g) (orderByClause g') fun _ => ⟨edge, 0⟩ :=
  follows_keys hk (by decide) (not_parting (by decide))
    ((follows_sortKey hg).loosen (Nat.le_refl 1))

/-- The tables of a query. -/
theorem follows_from :
    k.Follows m edge (clause? .FROM do pure (← tableRef, ← joins g))
      (clause? .FROM do pure (← tableRef, ← joins g')) fun _ => ⟨edge, 0⟩ := by
  refine (follows_clause (by decide) (.inr (not_parting (by decide))) ?_)
  have htables : k.Follows m false (do pure (← tableRef, ← joins g))
      (do pure (← tableRef, ← joins g')) fun _ => ⟨edge, 0⟩ :=
    (follows_tableRef hk).then fun source => (follows_joins hk hg).then fun joins =>
      follows_pure id rfl
  exact htables.mono (Nat.sub_le m 1)

/-- All of a query up to HAVING, behind SELECT. -/
theorem follows_core :
    k.Follows (m + 1) edge (core g) (core g') fun _ => ⟨edge, 1⟩ := by
  refine (follows_expect (by decide)).bind fun _ => ?_
  refine (follows_topClause hg).then fun early => ?_
  refine (follows_accept_inside (by decide) (not_parting (by decide))).then fun distinct => ?_
  refine .when (follows_skipOver (by decide) (.inr (not_parting (by decide)))) ?_
  dsimp only
  refine .choose (S := fun _ => ⟨false, 0⟩) (follows_pure nofun rfl) (follows_topClause hg)
    fun limit => ?_
  refine (follows_commaList (not_parting_comma hk) (follows_selectItem hk hg)).then
    fun columns => ?_
  refine (follows_from hk hg).then fun tables? => ?_
  refine (follows_whereClause hg).then fun predicate => ?_
  refine (follows_groupByClause hk hg).then fun groupBy => ?_
  exact (follows_clause_expression hg (by decide) (.inr (not_parting (by decide)))).then
    fun having => follows_pure id rfl

-- ============================================================== paging

/-- The rest of FETCH behind the count. -/
private def behindCount (count : Expr) : Parser Expr := do
  match ← next with
  | .keyword .ROW | .keyword .ROWS => pure ()
  | found => fault (.expected "ROW or ROWS" found)
  expect Keyword.ONLY
  pure count

omit hk hg in
private theorem follows_behindCount (count : Expr) :
    k.Follows m false (behindCount count) (behindCount count) fun _ => ⟨false, 0⟩ := by
  refine follows_next (Copy.fails_bind (Copy.fails_fault _)) fun t => ?_
  split
  case h_3 => exact .of_fails (Copy.fails_bind (Copy.fails_fault _))
  all_goals exact (follows_expect (by decide)).then fun _ => follows_pure nofun rfl

omit hk in
/-- Where the text is at its end, there is no count, although the other
spelling may go on as if it were left out. -/
theorem follows_fetchCount :
    k.Follows m edge (fetchCount g) (fetchCount g') fun _ => ⟨false, 1⟩ := by
  refine follows_next (Copy.fails_bind (Copy.fails_fault _)) fun t => ?_
  split
  case h_3 => exact .of_fails (Copy.fails_bind (Copy.fails_fault _))
  all_goals
    have hcounted : k.Follows m false (g.expression 0 >>= behindCount)
        (g'.expression 0 >>= behindCount) fun _ => ⟨false, 0⟩ :=
      (hg.expression 0).then fun count => follows_behindCount count
    refine follows_peek_parted (fun o => ?_) fun hlt hsynced hparted hperform => ?_
    · split
      · exact .pure_bind (follows_behindCount _)
      · exact .pure_bind (follows_behindCount _)
      · exact hcounted
    · rcases hparted with ⟨hend, -⟩ | ⟨-, hvalues, hexcluded⟩
      · rw [hend] at hperform
        obtain ⟨count, c₁, hcount, -⟩ := perform_bind_eq_ok.mp hperform
        exact absurd hcount (hg.perform_ne_ok_of_nil hlt hsynced (List.head?_eq_none_iff.mp hend))
      · rw [hvalues] at hperform
        rw [hexcluded]
        exact hcounted.keeps hlt hsynced hperform

omit hk in
theorem follows_fetchPaging :
    k.Follows m edge (fetchPaging g) (fetchPaging g') fun _ => ⟨edge, 0⟩ := by
  refine (follows_require _ _).then fun _ => ?_
  exact ((follows_fetchCount hg).then fun limit => follows_pure nofun rfl).loosen (Nat.le_refl 0)

omit hk in
/-- A row limit may go on in the other spelling, if that is not known to
end there. -/
theorem follows_limitPaging (hends : edge = true ∨ k.Ends [.keyword .ON]) :
    k.Follows m false (limitPaging g) (limitPaging g') fun _ => ⟨edge, 0⟩ := by
  have hother {t : Token} (ht : t ∉ [.keyword .ON]) : edge = true ∨ ¬k.Parting t :=
    hends.imp_right fun hends => hends.not_parting ht
  refine (follows_require _ _).then fun _ => ?_
  refine (hg.expression 0).then fun first => ?_
  refine (follows_ifAccept (by decide) (hother (by decide)) ?_ ?_).inside
  · have hlimit := (hg.expression 0).mono (Nat.sub_le m 1)
    exact hlimit.then fun limit => follows_pure nofun rfl
  · exact (follows_clause_expression hg (by decide) (hother (by decide))).then fun offset =>
      follows_pure id rfl

omit hk in
theorem follows_offsetPaging (hends : edge = true ∨ k.Ends [.keyword .ON]) (ordered : Bool) :
    k.Follows m false (offsetPaging g ordered) (offsetPaging g' ordered) fun _ => ⟨edge, 0⟩ := by
  have hother {t : Token} (ht : t ∉ [.keyword .ON]) : edge = true ∨ ¬k.Parting t :=
    hends.imp_right fun hends => hends.not_parting ht
  refine (hg.expression 0).then fun offset => ?_
  refine (follows_accept_inside (by decide) (not_parting (by decide))).then fun row => ?_
  refine .choose (S := fun rows => if rows then ⟨false, 0⟩ else ⟨edge, 0⟩) ?_ ?_ fun rows => ?_
  · exact follows_pure nofun rfl
  · refine (follows_accept (by decide) (hother (by decide))).weaken (Nat.le_refl m) nofun
      fun rows => ?_
    cases rows <;> exact ⟨id, Nat.zero_le _⟩
  · cases rows with
    | true =>
        show k.Follows m false _ _ fun _ => ⟨edge, 0⟩
        refine .ite (fun _ => ?_) fun hno => absurd rfl hno
        refine (follows_require _ _).then fun _ => ?_
        refine (follows_clause (by decide) (.inr (not_parting (by decide))) ?_).then fun limit => ?_
        · exact ((follows_fetchCount hg).mono (Nat.sub_le m 1)).loosen (Nat.zero_le 1)
        · refine .read (.ite (fun _ => ?_) fun _ => follows_pure nofun rfl)
          exact .of_fails (Copy.fails_bind (Copy.fails_throw _))
    | false =>
        show k.Follows m edge _ _ fun _ => ⟨edge, 0⟩
        refine .ite (fun hyes => absurd hyes Bool.false_ne_true) fun _ => ?_
        refine (follows_require _ _).then fun _ => ?_
        exact (follows_clause_expression hg (by decide) (hother (by decide))).then fun limit =>
          follows_pure id rfl

omit hk in
theorem follows_paging (hends : edge = true ∨ k.Ends [.keyword .ON]) (ordered : Bool) :
    k.Follows m edge (paging? g ordered) (paging? g' ordered) fun _ => ⟨edge, 0⟩ := by
  refine follows_dispatch
    (R := fun paging paging' => k.Follows m false paging paging' fun _ => ⟨edge, 0⟩) rfl ?_
    (fun t => ?_) (fun paging paging' h => .map h) (follows_pure id rfl)
  · refine hends.imp_right fun hends t ht => ?_
    obtain rfl := List.mem_singleton.mp (hends.mem ht)
    rfl
  · split
    · exact .some (follows_limitPaging hg hends)
    · exact .some (follows_offsetPaging hg hends ordered)
    · exact .some ((follows_fetchPaging hg).inside)
    · exact .none

-- ================================================================ WITH

omit hk hg in
theorem follows_materialization :
    k.Follows m false materialization? materialization? fun _ => ⟨false, 0⟩ := by
  have hhint : k.Follows m false materializedHint? materializedHint? fun _ => ⟨false, 0⟩ := by
    refine follows_ifAccept (by decide) (.inr (not_parting (by decide))) (follows_pure nofun rfl) ?_
    refine follows_ifAccept (by decide) (.inr (not_parting (by decide))) ?_ (follows_pure nofun rfl)
    exact (follows_expect (by decide)).then fun _ => follows_pure nofun rfl
  exact hhint.then fun hint => .when (follows_require _ _) (follows_pure nofun rfl)

/-- A named query behind the names of its columns. -/
private def behindColumns (g : Grammar) (recursive : Bool) (name : String)
    (columns : List String) : Parser Cte := do
  expect Keyword.AS
  let materialized ← materialization?
  let body ← parenthesized do
    let body ← g.select
    if body.ctes.isEmpty then pure body else fault (.nestedWith name)
  pure ⟨name, columns, recursive, materialized, body⟩

omit hk in
theorem follows_cte (recursive : Bool) :
    k.Follows m false (cte g recursive) (cte g' recursive) fun _ => ⟨false, 1⟩ := by
  refine follows_identifier.then fun name => ?_
  have hrest (columns : List String) : k.Follows m false (behindColumns g recursive name columns)
      (behindColumns g' recursive name columns) fun _ => ⟨false, 0⟩ := by
    refine (follows_expect (by decide)).then fun _ => ?_
    refine follows_materialization.then fun materialized => ?_
    have hbody : k.Follows m false
        (do
          let body ← g.select
          if body.ctes.isEmpty then pure body else fault (.nestedWith name))
        (do
          let body ← g'.select
          if body.ctes.isEmpty then pure body else fault (.nestedWith name)) fun _ => ⟨true, 0⟩ :=
      hg.select.then fun body => .ite (fun _ => follows_pure id rfl) fun _ =>
        .of_fails (Copy.fails_fault _)
    exact (follows_parenthesized hbody).then fun body => follows_pure nofun rfl
  refine follows_ifPeek (by decide) (.inr (not_parting (by decide))) ?_ ?_
  · exact (follows_identifierList.loosen (Nat.zero_le 1)).then hrest
  · exact .pure_bind (hrest [])

theorem follows_withClause :
    k.Follows (m + 1) false (withClause g) (withClause g') fun _ => ⟨edge, 0⟩ := by
  have hctes (recursive : Bool) : k.Follows m false (commaList (cte g recursive))
      (commaList (cte g' recursive)) fun _ => ⟨edge, 0⟩ :=
    (follows_commaList (not_parting_comma hk) ((follows_cte hg recursive).loosen
      (Nat.le_refl 1))).weaken (Nat.le_refl m) id fun _ => ⟨id, Nat.zero_le 1⟩
  refine Follows.then (Follows.inside (follows_clause (by decide) (.inr (not_parting (by decide)))
    ?_)) fun ctes? => follows_pure id rfl
  refine (follows_require _ _).then fun _ => ?_
  refine (follows_accept_inside (by decide) (not_parting (by decide))).then fun recursive => ?_
  exact .when (follows_require _ _) (hctes recursive)

-- ============================================================= queries

theorem follows_unions :
    k.Follows m edge (unions g) (unions g') fun _ => ⟨edge, 0⟩ := by
  refine follows_iterate (fun branches => ?_) []
  refine follows_ifAccept (by decide) (.inr (not_parting (by decide))) ?_ (follows_pure id rfl)
  refine (follows_accept_inside (by decide) (not_parting (by decide))).then fun all => ?_
  exact ((follows_core hk hg).mono (by omega)).inside.then fun q => follows_pure id rfl

/-- A query up to its row limit. -/
def unlimited (g : Grammar) : Parser Select := do
  let ctes ← withClause g
  let first ← core g
  let unions ← unions g
  pure { first with ctes, unions, orderBy := ← orderByClause g }

/-- The row limit of a query and what stands behind it. -/
def limited (g : Grammar) (query : Select) : Parser Select := do
  let query ←
    match ← paging? g !query.orderBy.isEmpty with
    | none => pure query
    | some paging =>
      if query.limit.isSome then throw (.invalid .topWithPaging)
      else pure { query with offset := paging.offset, limit := paging.limit }
  pure { query with queryHints := ← queryHints }

omit hk hg in
theorem selectWith_eq (g : Grammar) : selectWith g = unlimited g >>= limited g := by
  show (do
    let ctes ← withClause g
    let first ← core g
    let unions ← unions g
    let orderBy ← orderByClause g
    limited g { first with ctes, unions, orderBy }) = _
  unfold unlimited
  simp only [bind_assoc, pure_bind]

theorem follows_unlimited :
    k.Follows (m + 1) false (unlimited g) (unlimited g') fun _ => ⟨edge, 1⟩ := by
  refine (follows_withClause hk hg).then fun ctes => ?_
  refine (follows_core hk hg).bind fun first => ?_
  refine (follows_unions hk hg).then fun unions => ?_
  exact (follows_orderByClause hk hg).then fun orderBy => follows_pure id rfl

omit hk in
theorem follows_limited (hends : edge = true ∨ k.Ends [.keyword .ON]) (query : Select) :
    k.Follows m edge (limited g query) (limited g' query) fun _ => ⟨edge, 0⟩ := by
  have hhints (query : Select) : k.Follows m edge
      (do pure { query with queryHints := ← queryHints })
      (do pure { query with queryHints := ← queryHints }) fun _ => ⟨edge, 0⟩ :=
    follows_queryHints.then fun hints => follows_pure id rfl
  refine (follows_paging hg hends _).then fun paging? => ?_
  cases paging? with
  | none => exact .pure_bind (hhints _)
  | some paging =>
      refine .ite (fun _ => .of_fails (Copy.fails_bind (Copy.fails_throw _))) fun _ => ?_
      exact .pure_bind (hhints _)

omit hk in
/-- A query is the same, up to a dead end where the other spelling may go
on with it. -/
theorem follows_selectWith (hends : edge = true ∨ k.Ends [.keyword .ON]) :
    k.Follows (m + 1) false (selectWith g) (selectWith g') fun _ => ⟨edge, 0⟩ := by
  have hk : edge = true ∨ k.Ends queryEnders :=
    hends.imp_right fun hends => hends.imp (by simp [queryEnders])
  rw [selectWith_eq, selectWith_eq]
  exact (follows_unlimited hk hg).bind (follows_limited hg hends)

-- =============================================================== depth

omit hk hg in
/-- How deep a grammar is does not matter, as long as the other spelling
has fewer tokens than its grammar has levels. -/
theorem followsGrammar_ofDepth (depth bound : Nat) :
    k.FollowsGrammar bound (ofDepth depth) (ofDepth bound) := by
  induction bound generalizing depth with
  | zero => exact ⟨fun _ => .bounded, .bounded⟩
  | succ bound ih =>
      cases depth with
      | zero => exact ⟨fun _ => .of_fails Copy.fails_ending, .of_fails Copy.fails_ending⟩
      | succ depth =>
          exact ⟨follows_expressionWith (ih depth), follows_selectWith (ih depth) (.inl rfl)⟩

end DialectDb.Respelling
