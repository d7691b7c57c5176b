/-
A query that is written as tokens is read back from them, if the
expressions and queries in it are (`TakesExpr`, `TakesQuery`): clause by
clause, each up to the next one that is there.
-/
import DialectDb.Proofs.Clauses

namespace DialectDb

-- ========================================================= first tokens

/-- Whether a token is the first one of an operand that is written. -/
def Token.opensOperand : Token → Bool
  | .number _ | .string _ | .ident _ | .parameter _ => true
  | .sign .asterisk | .sign .question | .sign .openParen => true
  | .keyword .NULL | .keyword .TRUE | .keyword .FALSE | .keyword .EXISTS => true
  | _ => false

theorem Value.token_opensOperand (v : Value) : v.token.opensOperand = true := by
  unfold Value.token
  split <;> rfl

/-- An expression is written as an operand. -/
theorem Expr.tokens_opensOperand (e : Expr) :
    ∃ token rest, e.tokens = token :: rest ∧ token.opensOperand = true := by
  cases e with
  | column table name => cases table <;> exact ⟨_, _, rfl, rfl⟩
  | literal v => exact ⟨_, _, rfl, v.token_opensOperand⟩
  | parameter placeholder => cases placeholder <;> exact ⟨_, _, rfl, rfl⟩
  | _ => exact ⟨_, _, rfl, rfl⟩

/-- A token that opens no operand does not open an expression. -/
theorem Expr.tokens_head?_ne {token : Token} (htoken : token.opensOperand = false) (e : Expr)
    (rest : List Token) : (e.tokens ++ rest).head? ≠ some token := by
  obtain ⟨first, tail, htokens, hopens⟩ := e.tokens_opensOperand
  rw [htokens]
  rintro ⟨⟩
  rw [hopens] at htoken
  cases htoken

theorem Expr.opensExpression (e : Expr) : OpensExpression e.tokens := by
  obtain ⟨first, tail, htokens, hopens⟩ := e.tokens_opensOperand
  refine ⟨first, tail, htokens, ?_, ?_, ?_⟩ <;>
  · rintro rfl
    cases hopens

/-- A query begins with SELECT or WITH. -/
theorem Select.tokens_opens (q : Select) :
    ∃ token rest, q.tokens = token :: rest ∧
      (token = .keyword .SELECT ∨ token = .keyword .WITH) := by
  rw [q.tokens_eq]
  cases q.ctes with
  | nil => exact ⟨_, _, rfl, .inl rfl⟩
  | cons cte ctes => exact ⟨_, _, rfl, .inr rfl⟩

namespace Grammar

open DialectDb.Parser

/-- An operand does not begin with an operator. -/
theorem ofToken_opensOperand {token : Token} (h : token.opensOperand = true) :
    UnaryOp.ofToken? token = none := by
  unfold Token.opensOperand at h
  split at h <;> first | rfl | cases h

-- ========================================================= surroundings

/-- Surroundings in which every written query can be read: the dialect
version has each of its constructs, and it stands in no upsert
assignment. -/
structure Admits (around : Surroundings) : Prop where
  failure : around.failure = none
  upsert : around.upsert = false
  withClause : around.version.supportsCte = true
  withRecursive : around.version.supportsRecursiveCte = true
  materialized : around.version.dialect.materializedHint = true
  limitOffset : around.version.dialect.limitOffset = true

variable {around : Surroundings} {g : Grammar}

/-- An expression is read back at every level. -/
def TakesExpr (around : Surroundings) (g : Grammar) (e : Expr) : Prop :=
  ∀ min, TakesBefore around (g.expression min) (Stops min) (e, e.tokens)

/-- A query is read back. -/
def TakesQuery (around : Surroundings) (g : Grammar) (q : Select) : Prop :=
  TakesBefore around g.select (Behind 9) (q, q.tokens)

/-- So is an expression that may be left out, behind a word. -/
theorem takes_clauseExpr {word : Keyword} {e? : Option Expr} {rest : List Token}
    (h : ∀ e ∈ e?, TakesExpr around g e) (hrest : Stops 0 rest)
    (hword : rest.head? ≠ some (.keyword word)) :
    Takes around (clause? word (g.expression 0)) (clauseTokens word (e?.map Expr.tokens) ++ rest) e?
      rest :=
  takes_clauseTokens (fun e he => h e he 0 rest hrest) hword

-- =============================================================== tables

/-- An alias is read, or nothing before what ends an item. -/
theorem takes_aliasName (hend : around.failure = none) (name? : Option String) {rest : List Token}
    (hrest : EndsItem rest) :
    Takes around aliasName? (aliasTokens name? ++ rest) name? rest := by
  cases name? with
  | some name => exact takes_bind takes_accept (takes_map (takes_identifier rfl))
  | none =>
      refine takes_bind (takes_accept_false (hrest.ne rfl)) (takes_bind (takes_peek_head hend) ?_)
      split
      · next name hname => exact absurd hname (hrest.ne rfl)
      · exact takes_pure

/-- No hint is read where an item ends. -/
theorem takes_tableHints (hend : around.failure = none) {rest : List Token}
    (hrest : EndsItem rest) : Takes around tableHints rest [] rest := by
  refine Repeats.takes (.stop (takes_bind (takes_peek_head hend) ?_))
  split
  · next hhead => exact absurd hhead (hrest.ne rfl)
  · next hhead => exact absurd hhead (hrest.ne rfl)
  · next hhead => exact absurd hhead (hrest.ne rfl)
  · next hhead => exact absurd hhead (hrest.ne rfl)
  · next hhead => exact absurd hhead (hrest.ne rfl)
  · exact takes_pure

/-- Behind an alias, or without one, an item ends. -/
theorem aliasTokens_head?_ne (token : Token) (htoken : token.endsItem = false)
    (has : token ≠ .keyword .AS) (name? : Option String) {rest : List Token}
    (hrest : EndsItem rest) : (aliasTokens name? ++ rest).head? ≠ some token := by
  cases name? with
  | none => exact hrest.ne htoken
  | some name =>
      rintro ⟨⟩
      exact has rfl

theorem takes_tableRef (hend : around.failure = none) {table : TableRef} (h : table.IsWritable)
    {rest : List Token} (hrest : EndsItem rest) :
    Takes around tableRef (table.tokens ++ rest) table rest := by
  have hperiod : (aliasTokens table.aliasName ++ rest).head? ≠ some (.sign .period) :=
    aliasTokens_head?_ne (.sign .period) rfl nofun _ hrest
  have hname : Takes around tableName (table.tokens ++ rest) table.name
      (aliasTokens table.aliasName ++ rest) := by
    refine takes_bind (takes_identifier rfl) (Repeats.takes (.stop ?_))
    exact takes_bind (takes_accept_false hperiod) takes_pure
  refine takes_bind hname (takes_bind (takes_aliasName hend _ hrest) ?_)
  refine takes_bind (takes_tableHints hend hrest) ?_
  rw [← h.hints]
  exact takes_pure

theorem takes_joinKind (kind : JoinKind) (rest : List Token) :
    Takes around joinKind? (kind.tokens ++ rest) (some kind) rest := by
  have hno {first token : Token} (hne : first ≠ token) (tokens : List Token) :
      Takes around (accept token) (first :: tokens) false (first :: tokens) :=
    takes_accept_false fun heq => hne (Option.some.inj heq)
  have hjoin : Takes around (expect Keyword.JOIN >>= fun _ => pure (some kind))
      (.keyword .JOIN :: rest) (some kind) rest := takes_bind takes_expect takes_pure
  have houter : Takes around (skipOver Keyword.OUTER) (.keyword .JOIN :: rest) ()
      (.keyword .JOIN :: rest) := takes_skipOver_none nofun
  unfold joinKind?
  cases kind with
  | cross =>
      refine takes_bind (hno (by decide) _) (takes_bind (hno (by decide) _) ?_)
      exact takes_bind takes_accept hjoin
  | inner =>
      refine takes_bind (hno (by decide) _) (takes_bind (hno (by decide) _) ?_)
      refine takes_bind (hno (by decide) _) ?_
      exact takes_bind takes_accept hjoin
  | left =>
      refine takes_bind (hno (by decide) _) (takes_bind (hno (by decide) _) ?_)
      refine takes_bind (hno (by decide) _) (takes_bind (hno (by decide) _) ?_)
      exact takes_bind takes_accept (takes_bind houter hjoin)
  | right =>
      refine takes_bind (hno (by decide) _) (takes_bind (hno (by decide) _) ?_)
      refine takes_bind (hno (by decide) _) (takes_bind (hno (by decide) _) ?_)
      refine takes_bind (hno (by decide) _) ?_
      exact takes_bind takes_accept (takes_bind houter hjoin)

/-- Behind the joins none is read. -/
theorem takes_joinKind_none {rest : List Token} (hrest : Behind 2 rest) :
    Takes around joinKind? rest none rest := by
  have hno {token : Token} (htoken : token.place?.all (· < 2) = true) :
      Takes around (accept token) rest false rest := takes_accept_false (hrest.ne htoken)
  refine takes_bind (hno rfl) (takes_bind (hno rfl) ?_)
  refine takes_bind (hno rfl) (takes_bind (hno rfl) ?_)
  exact takes_bind (hno rfl) (takes_bind (hno rfl) takes_pure)

theorem takes_join (hend : around.failure = none) {join : Join} (h : join.IsWritable)
    (hpredicate : ∀ e ∈ join.predicate, TakesExpr around g e) {rest : List Token}
    (hrest : EndsItem rest) : Takes around (join? g) (join.tokens ++ rest) (some join) rest := by
  obtain ⟨htable, hkind⟩ := h
  obtain ⟨kind, table, predicate⟩ := join
  unfold Join.tokens joinTokens
  rw [List.append_assoc, List.append_assoc]
  refine takes_bind (takes_joinKind kind _) ?_
  dsimp only at hkind ⊢
  cases predicate with
  | none =>
      refine takes_bind (takes_tableRef hend htable hrest) ?_
      rw [if_pos (hkind.mp rfl)]
      exact takes_pure
  | some e =>
      have hon : EndsItem (.keyword .ON :: (e.tokens ++ rest)) := by
        rintro _ ⟨⟩
        rfl
      refine takes_bind (takes_tableRef hend htable hon) ?_
      rw [if_neg fun hcross => nomatch hkind.mpr hcross]
      refine takes_bind takes_expect (takes_bind ?_ takes_pure)
      exact hpredicate e rfl 0 rest (hrest.stops 0)

/-- What a join begins with. -/
theorem behind_join (join : Join) (rest : List Token) : Behind 1 (join.tokens ++ rest) := by
  rintro token htoken
  obtain ⟨kind, table, predicate⟩ := join
  cases kind <;> (cases htoken; exact ⟨1, rfl, Nat.le_refl 1⟩)

theorem takes_joins (hend : around.failure = none) {joins : List Join}
    (h : ∀ join ∈ joins, join.IsWritable)
    (hpredicates : ∀ join ∈ joins, ∀ e ∈ join.predicate, TakesExpr around g e)
    {rest : List Token} (hrest : Behind 2 rest) :
    Takes around (Grammar.joins g) ((joins.map Join.tokens).flatten ++ rest) joins rest := by
  refine takes_iterate_append (Behind 1) ?_ ?_ (hrest.mono (by decide)) ?_
  · intro join hjoin read rest hrest
    exact takes_bind (takes_join hend (h join hjoin) (hpredicates join hjoin) hrest.endsItem)
      takes_pure
  · intro join _ rest
    refine ⟨?_, behind_join join rest⟩
    obtain ⟨kind, table, predicate⟩ := join
    cases kind <;> exact List.cons_ne_nil _ _
  · intro read
    exact takes_bind (takes_bind (takes_joinKind_none hrest) takes_pure) takes_pure

-- ================================================================ cores

theorem takes_selectItem (hend : around.failure = none) {item : SelectItem} (h : item.IsWritable)
    (hitem : TakesExpr around g item.expr) :
    TakesBefore around (selectItem g) EndsItem (item, item.tokens) := by
  intro rest hrest
  have hstar := h.star
  obtain ⟨e, name?⟩ := item
  have hstops : Stops 0 (aliasTokens name? ++ rest) := by
    cases name? with
    | none => exact hrest.stops 0
    | some name => exact stops_word (.inl rfl) 0 _
  unfold SelectItem.tokens
  rw [List.append_assoc]
  refine takes_bind (hitem 0 _ hstops) ?_
  dsimp only
  split
  · next heq =>
      obtain rfl : name? = none := hstar heq
      exact takes_pure
  · exact takes_bind (takes_aliasName hend name? hrest) takes_pure

/-- A selected expression begins as an operand does. -/
theorem columns_head?_ne {columns : List SelectItem} (hne : columns ≠ []) {token : Token}
    (htoken : token.opensOperand = false) (rest : List Token) :
    (commaSeparated (columns.map SelectItem.tokens) ++ rest).head? ≠ some token := by
  cases columns with
  | nil => exact absurd rfl hne
  | cons item columns =>
      simp only [List.map_cons, commaSeparated, SelectItem.tokens, List.append_assoc]
      exact item.expr.tokens_head?_ne htoken _

/-- The table and the joins behind FROM are read, if there are any. -/
theorem takes_from (hend : around.failure = none) {source : Option TableRef} {joins : List Join}
    (hsource : ∀ table ∈ source, table.IsWritable) (halone : source = none → joins = [])
    {rest : List Token} (hrest : Behind 2 rest)
    (hjoins : Takes around (Grammar.joins g) ((joins.map Join.tokens).flatten ++ rest) joins rest) :
    Takes around
      (clause? .FROM do
        let source ← tableRef
        pure (source, ← Grammar.joins g))
      (fromTokens source (joins.map Join.tokens) ++ rest) (source.map (·, joins)) rest := by
  cases source with
  | none => exact takes_clause_none (hrest.ne rfl)
  | some table =>
      have hbehind : Behind 1 ((joins.map Join.tokens).flatten ++ rest) := by
        cases joins with
        | nil => exact hrest.mono (by decide)
        | cons join joins =>
            rw [List.map_cons, List.flatten_cons, List.append_assoc]
            exact behind_join join _
      have htable := takes_tableRef hend (hsource table rfl) hbehind.endsItem
      rw [← List.append_assoc] at htable
      exact takes_clause (takes_bind htable (takes_bind hjoins takes_pure))

/-- A query without what belongs to all branches. -/
def coreOnly (q : Select) : Select :=
  { q with ctes := [], unions := [], orderBy := [], offset := none, limit := none,
           queryHints := [] }

/-- A query is read back up to HAVING. -/
def TakesCore (around : Surroundings) (g : Grammar) (q : Select) : Prop :=
  TakesBefore around (core g) (Behind 5) (coreOnly q, q.coreTokens)

/-- That is so if the expressions in it are. -/
theorem takes_core (hend : around.failure = none) {q : Select} (hq : q.IsWritable)
    {s : Select → Prop} (h : q.Parts (TakesExpr around g) s) : TakesCore around g q := by
  intro rest hrest
  -- behind each clause what can still follow
  have hhaving : Behind 4 (clauseTokens .HAVING (q.having.map Expr.tokens) ++ rest) :=
    .clause rfl (by decide) (hrest.mono (by decide)) _
  have hgroupBy : Behind 3 (listTokens .GROUP .BY (q.groupBy.map Expr.tokens) ++
      (clauseTokens .HAVING (q.having.map Expr.tokens) ++ rest)) :=
    .list rfl (by decide) (hhaving.mono (by decide)) _
  have hpredicate : Behind 2 (clauseTokens .WHERE (q.predicate.map Expr.tokens) ++
      (listTokens .GROUP .BY (q.groupBy.map Expr.tokens) ++
        (clauseTokens .HAVING (q.having.map Expr.tokens) ++ rest))) :=
    .clause rfl (by decide) (hgroupBy.mono (by decide)) _
  have hfrom : Behind 0 (fromTokens q.source (q.joins.map Join.tokens) ++
      (clauseTokens .WHERE (q.predicate.map Expr.tokens) ++
        (listTokens .GROUP .BY (q.groupBy.map Expr.tokens) ++
          (clauseTokens .HAVING (q.having.map Expr.tokens) ++ rest)))) :=
    .clause rfl (by decide) (hpredicate.mono (by decide)) _
  have hitems := takes_commaList_map endsItem_comma
    (fun item hitem => takes_selectItem hend (hq.items item hitem) (h.columns item hitem)) hq.columns
    hfrom.endsItem (hfrom.ne rfl)
  have htables := takes_from hend hq.source hq.alone hpredicate
    (takes_joins hend hq.joins h.joins hpredicate)
  have hwhere : Takes around (whereClause g) _ q.predicate _ :=
    takes_clauseExpr h.predicate (hgroupBy.endsItem.stops 0) (hgroupBy.ne rfl)
  have hkeys : Takes around (groupByClause g) _ q.groupBy _ :=
    takes_listTokens (stops_comma 0) (fun e he => h.groupBy e he 0)
      (hhaving.endsItem.stops 0) (hhaving.ne rfl) (hhaving.ne rfl)
  have hlast : Takes around (clause? .HAVING (g.expression 0)) _ q.having _ :=
    takes_clauseExpr h.having (hrest.endsItem.stops 0) (hrest.ne rfl)
  have hno {token : Token} (htoken : token.opensOperand = false) := columns_head?_ne hq.columns htoken
    (fromTokens q.source (q.joins.map Join.tokens) ++
      (clauseTokens .WHERE (q.predicate.map Expr.tokens) ++
        (listTokens .GROUP .BY (q.groupBy.map Expr.tokens) ++
          (clauseTokens .HAVING (q.having.map Expr.tokens) ++ rest))))
  have hparts : (q.source.map (·, q.joins)).map Prod.fst = q.source ∧
      ((q.source.map (·, q.joins)).map Prod.snd).getD [] = q.joins := by
    cases hsource : q.source with
    | none => exact ⟨rfl, (hq.alone hsource).symm⟩
    | some table => exact ⟨rfl, rfl⟩
  unfold coreOnly Select.coreTokens selectTokens core
  simp only [List.append_assoc, List.cons_append]
  refine takes_bind takes_expect ?_
  cases hdistinct : q.distinct with
  | true =>
      refine takes_bind (takes_clause_none nofun) (takes_bind takes_accept ?_)
      refine takes_bind (takes_clause_none (hno rfl)) ?_
      refine takes_bind hitems (takes_bind htables (takes_bind hwhere (takes_bind hkeys
        (takes_bind hlast ?_))))
      rw [hparts.1, hparts.2]
      exact takes_pure
  | false =>
      refine takes_bind (takes_clause_none (hno rfl)) (takes_bind (takes_accept_false (hno rfl)) ?_)
      refine takes_bind (takes_skipOver_none (hno rfl)) ?_
      refine takes_bind (takes_clause_none (hno rfl)) ?_
      refine takes_bind hitems (takes_bind htables (takes_bind hwhere (takes_bind hkeys
        (takes_bind hlast ?_))))
      rw [hparts.1, hparts.2]
      exact takes_pure

-- ============================================================== queries

/-- A branch of UNION is read as a core. -/
theorem TakesCore.branch {q : Select} (h : TakesCore around g q) (hbranch : q.IsBranch)
    (hlimit : q.limit = none) : TakesBefore around (core g) (Behind 5) (q, q.tokens) := by
  have hself : coreOnly q = q := by
    obtain ⟨hctes, hunions, horderBy, hoffset, hhints⟩ := hbranch
    cases q
    simp_all [coreOnly]
  unfold TakesCore at h
  rwa [hself, ← Select.tokens_eq_coreTokens hbranch hlimit] at h

theorem takes_unions {branches : List UnionBranch}
    (h : ∀ branch ∈ branches, branch.select.IsBranch ∧ branch.select.limit = none)
    (hcores : ∀ branch ∈ branches, TakesCore around g branch.select)
    {rest : List Token} (hrest : Behind 6 rest) :
    Takes around (unions g) ((branches.map UnionBranch.tokens).flatten ++ rest) branches rest := by
  refine takes_iterate_append (Behind 5) ?_ ?_ (hrest.mono (by decide)) ?_
  · intro branch hmem read rest hrest
    obtain ⟨hbranch, hlimit⟩ := h branch hmem
    have hcore := (hcores branch hmem).branch hbranch hlimit rest hrest
    have hall : Takes around (accept Keyword.ALL)
        ((if branch.all then [.keyword .ALL] else []) ++ (branch.select.tokens ++ rest)) branch.all
        (branch.select.tokens ++ rest) := by
      cases branch.all with
      | true => exact takes_accept
      | false =>
          rw [Select.tokens_eq_coreTokens hbranch hlimit]
          exact takes_accept_false nofun
    obtain ⟨all, select⟩ := branch
    unfold UnionBranch.tokens unionTokens
    rw [List.cons_append, List.append_assoc]
    exact takes_bind takes_accept (takes_bind hall (takes_bind hcore takes_pure))
  · intro branch _ rest
    exact ⟨List.cons_ne_nil _ _, .cons rfl (by decide) _⟩
  · intro read
    exact takes_bind (takes_accept_false (hrest.ne rfl)) takes_pure

/-- A sort key is read, ascending unless DESC is there. -/
theorem takes_sortKey {key : SortKey} (h : TakesExpr around g key.expr) :
    TakesBefore around (sortKey g) EndsItem (key, key.tokens) := by
  intro rest hrest
  obtain ⟨e, direction⟩ := key
  unfold SortKey.tokens
  rw [List.append_assoc]
  cases direction with
  | ascending =>
      refine takes_bind (h 0 rest (hrest.stops 0)) (takes_bind (takes_nextMap_none ?_) takes_pure)
      intro token htoken
      have hends := hrest token htoken
      split
      · cases hends
      · cases hends
      · rfl
  | descending =>
      refine takes_bind (h 0 _ (stops_word (.inr rfl) 0 rest)) ?_
      exact takes_bind (takes_nextMap rfl) takes_pure

/-- LIMIT and OFFSET are read, in this order, if they are there. -/
theorem takes_paging (hadmits : Admits around) {limit offset : Option Expr}
    (hlimit : ∀ e ∈ limit, TakesExpr around g e) (hoffset : ∀ e ∈ offset, TakesExpr around g e)
    (ordered : Bool) {rest : List Token} (hrest : Behind 9 rest) :
    ∃ paging : Option Paging, paging.getD {} = ⟨offset, limit⟩ ∧
      Takes around (paging? g ordered)
        (clauseTokens .LIMIT (limit.map Expr.tokens) ++
          (clauseTokens .OFFSET (offset.map Expr.tokens) ++ rest)) paging rest := by
  have hrequire (feature : Feature) (tokens : List Token) :
      Takes around (require (·.dialect.limitOffset) feature) tokens () tokens :=
    takes_require hadmits.limitOffset feature tokens
  have hoffsetClause : Behind 8 (clauseTokens .OFFSET (offset.map Expr.tokens) ++ rest) :=
    .clause rfl (by decide) (hrest.mono (by decide)) _
  cases limit with
  | some e =>
      refine ⟨some ⟨offset, some e⟩, rfl, takes_bind (takes_nextMap rfl) (takes_map ?_)⟩
      have hfirst := hlimit e rfl 0 _ (hoffsetClause.endsItem.stops 0)
      refine takes_bind (hrequire _ _) (takes_bind hfirst ?_)
      refine takes_bind (takes_accept_false (hoffsetClause.ne rfl)) ?_
      exact takes_bind (takes_clauseExpr hoffset (hrest.endsItem.stops 0) (hrest.ne rfl)) takes_pure
  | none =>
      cases offset with
      | some e =>
          refine ⟨some ⟨some e, none⟩, rfl, takes_bind (takes_nextMap rfl) (takes_map ?_)⟩
          refine takes_bind (hoffset e rfl 0 rest (hrest.endsItem.stops 0)) ?_
          refine takes_bind (takes_accept_false (hrest.ne rfl)) ?_
          refine takes_bind (takes_accept_false (hrest.ne rfl)) (takes_bind (hrequire _ _) ?_)
          exact takes_bind (takes_clause_none (hrest.ne rfl)) takes_pure
      | none =>
          refine ⟨none, rfl, takes_bind (takes_nextMap_none ?_) takes_pure⟩
          intro token htoken
          obtain ⟨p, hp, hlast⟩ := hrest token htoken
          split
          · cases hp
            exact absurd hlast (by decide)
          · cases hp
            exact absurd hlast (by decide)
          · cases hp
          · rfl

-- ================================================================= WITH

/-- The columns of a named query are read, if they are there, and then
what stands behind them. -/
theorem takes_columnList {α : Type} {f : List String → Parser α} {columns : List String}
    {tokens rest : List Token} {a : α}
    (hf : Takes around (f columns) (.keyword .AS :: tokens) a rest) :
    Takes around
      (do
        let columns ← if (← peek) = some (Token.sign .openParen) then identifierList else pure []
        f columns)
      (columnListTokens columns ++ .keyword .AS :: tokens) a rest := by
  cases columns with
  | nil => exact takes_bind takes_peek (takes_bind takes_pure hf)
  | cons name columns =>
      have hname : ∀ n ∈ name :: columns,
          TakesBefore around identifier (fun _ => True) (n, [.ident n]) :=
        fun _ _ _ _ => takes_identifier rfl
      have hclose : (Token.sign .closeParen :: .keyword .AS :: tokens).head? ≠
          some (.sign .comma) := nofun
      have hnames := takes_commaList_map (fun _ => trivial) hname nofun trivial hclose
      show Takes around _ (inParentheses _ ++ _) a rest
      unfold inParentheses
      rw [List.cons_append, List.append_assoc]
      exact takes_bind takes_peek (takes_bind (takes_parenthesized hnames) hf)

theorem takes_materialization (hadmits : Admits around) (materialized : Option Bool)
    (rest : List Token) :
    Takes around materialization? (materializedTokens materialized ++ .sign .openParen :: rest)
      materialized (.sign .openParen :: rest) := by
  have hrequire (feature : Feature) (tokens : List Token) :
      Takes around (require (·.dialect.materializedHint) feature) tokens () tokens :=
    takes_require hadmits.materialized feature tokens
  have hhint : Takes around materializedHint?
      (materializedTokens materialized ++ .sign .openParen :: rest) materialized
      (.sign .openParen :: rest) := by
    match materialized with
    | none =>
        refine takes_bind (takes_accept_false nofun) ?_
        exact takes_bind (takes_accept_false nofun) takes_pure
    | some true => exact takes_bind takes_accept takes_pure
    | some false =>
        refine takes_bind (takes_accept_false nofun) (takes_bind takes_accept ?_)
        exact takes_bind takes_expect takes_pure
  refine takes_bind hhint ?_
  cases materialized with
  | none => exact takes_pure
  | some yes => exact takes_bind (hrequire _ _) takes_pure

theorem takes_cte (hadmits : Admits around) {cte : Cte} (hctes : cte.body.ctes = [])
    (hbody : TakesQuery around g cte.body) (rest : List Token) :
    Takes around (Grammar.cte g cte.recursive) (cte.tokens ++ rest) cte rest := by
  obtain ⟨name, columns, recursive, materialized, body⟩ := cte
  have hquery : Takes around
      (do
        let body ← g.select
        if body.ctes.isEmpty then pure body else fault (.nestedWith name))
      (body.tokens ++ .sign .closeParen :: rest) body (.sign .closeParen :: rest) := by
    refine takes_bind (hbody _ (.closeParen rest)) ?_
    rw [if_pos (by rw [hctes]; rfl)]
    exact takes_pure
  unfold Cte.tokens Cte.headTokens inParentheses
  simp only [List.cons_append, List.append_assoc, List.nil_append]
  refine takes_bind (takes_identifier rfl) (takes_columnList (takes_bind takes_expect ?_))
  refine takes_bind (takes_materialization hadmits materialized _) ?_
  exact takes_bind (takes_parenthesized hquery) takes_pure

/-- WITH is read, if there are named queries. -/
theorem takes_with (hadmits : Admits around) {ctes : List Cte} {recursive : Bool}
    (hrecursive : ∀ cte ∈ ctes, cte.recursive = recursive)
    (hctes : ∀ cte ∈ ctes, cte.body.ctes = [])
    (hbodies : ∀ cte ∈ ctes, TakesQuery around g cte.body) (rest : List Token) :
    Takes around (withClause g)
      (withTokens (ctes.any (·.recursive)) (ctes.map Cte.tokens) ++ .keyword .SELECT :: rest) ctes
      (.keyword .SELECT :: rest) := by
  cases ctes with
  | nil => exact takes_bind (takes_clause_none nofun) takes_pure
  | cons cte ctes =>
      have hany : (cte :: ctes).any (·.recursive) = recursive := by
        rw [Bool.eq_iff_iff, List.any_eq_true]
        constructor
        · rintro ⟨c, hc, htrue⟩
          rw [← hrecursive c hc]
          exact htrue
        · intro htrue
          exact ⟨cte, List.mem_cons_self, (hrecursive cte List.mem_cons_self).trans htrue⟩
      have hitems : ∀ c ∈ cte :: ctes,
          TakesBefore around (Grammar.cte g recursive) (fun _ => True) (c, c.tokens) := by
        intro c hc rest _
        rw [← hrecursive c hc]
        exact takes_cte hadmits (hctes c hc) (hbodies c hc) rest
      have hend : (Token.keyword .SELECT :: rest).head? ≠ some (.sign .comma) := nofun
      have hlist := takes_commaList_map (fun _ => trivial) hitems nofun trivial hend
      rw [hany]
      refine takes_bind (takes_clause ?_) takes_pure
      refine takes_bind (takes_require hadmits.withClause _ _) ?_
      cases recursive with
      | true =>
          refine takes_bind takes_accept (takes_bind (takes_require hadmits.withRecursive _ _) ?_)
          exact hlist
      | false => exact takes_bind (takes_accept_false nofun) hlist

private theorem eq_of_paging {q : Select} {paging : Paging}
    (h : paging = ⟨q.offset, q.limit⟩) :
    { q with offset := paging.offset, limit := paging.limit } = q := by
  subst h
  cases q
  rfl

/-- A query is read back, if what is in it is. -/
theorem takes_select (hadmits : Admits around) {q : Select} (hq : q.IsWritable)
    (h : q.Parts (TakesExpr around g) fun inner =>
      TakesQuery around g inner ∧ TakesCore around g inner) :
    TakesBefore around (selectWith g) (Behind 9) (q, q.tokens) := by
  intro rest hrest
  -- behind each clause what can still follow
  have hpaging : Behind 7 (clauseTokens .LIMIT (q.limit.map Expr.tokens) ++
      (clauseTokens .OFFSET (q.offset.map Expr.tokens) ++ rest)) :=
    .clause rfl (by decide) (.clause rfl (by decide) (hrest.mono (by decide)) _) _
  have horder : Behind 6 (q.tailTokens ++ rest) := by
    unfold Select.tailTokens
    rw [List.append_assoc, List.append_assoc]
    exact .list rfl (by decide) (hpaging.mono (by decide)) _
  have hunions :
      Behind 5 ((q.unions.map UnionBranch.tokens).flatten ++ (q.tailTokens ++ rest)) := by
    cases q.unions with
    | nil => exact horder.mono (by decide)
    | cons branch branches => exact .cons rfl (by decide) _
  obtain ⟨recursive, hrecursive⟩ := hq.recursive
  obtain ⟨paging, hpaged, htakesPaging⟩ :=
    takes_paging hadmits h.limit h.offset (!q.orderBy.isEmpty) hrest
  have hkeys : Takes around (orderByClause g) _ q.orderBy _ :=
    takes_listTokens endsItem_comma (fun key hkey => takes_sortKey (h.orderBy key hkey))
      hpaging.endsItem (hpaging.ne rfl) (hpaging.ne rfl)
  have hhints : Takes around queryHints rest q.queryHints rest := by
    rw [hq.queryHints]
    exact takes_bind (takes_clause_none (hrest.ne rfl)) takes_pure
  dsimp only
  rw [q.tokens_eq]
  simp only [List.append_assoc]
  have hctes := takes_with hadmits hrecursive (fun cte hcte => (hq.ctes cte hcte).body)
    (fun cte hcte => (h.ctes cte hcte).1)
  refine takes_bind (hctes _) (takes_bind (takes_core hadmits.failure hq h _ hunions) ?_)
  refine takes_bind (takes_unions hq.unions (fun b hb => (h.unions b hb).2) horder) ?_
  unfold Select.tailTokens
  simp only [List.append_assoc]
  refine takes_bind hkeys (takes_bind htakesPaging ?_)
  have hself (paging : Paging) (hpaged : paging = ⟨q.offset, q.limit⟩) :
      Takes around (pure { q with offset := paging.offset, limit := paging.limit }) rest q
        rest := by
    rw [eq_of_paging hpaged]
    exact takes_pure
  cases paging with
  | none => exact takes_bind takes_pure (takes_bind hhints (hself {} hpaged))
  | some paging => exact takes_bind takes_pure (takes_bind hhints (hself paging hpaged))

end Grammar

end DialectDb
