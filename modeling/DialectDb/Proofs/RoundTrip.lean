/-
A query survives being written and read again: the text of a query that
can be written is parsed as that query, and as nothing else.

The text is cut into the tokens that were written (`lex_spelled`), and
from these the query is read (`rereads_writable`). Each level of nesting
takes tokens of its own, so that a grammar with a level for each token is
deep enough.
-/
import DialectDb.Dialect.Catalog
import DialectDb.Grammar.Statement
import DialectDb.Proofs.RereadQueries
import DialectDb.Proofs.Spelling

namespace DialectDb

-- ============================================================ spellings

/-- All of the tokens have spellings. -/
def Spellable (tokens : List Token) : Prop :=
  ∀ token ∈ tokens, token.IsSpellable

namespace Spellable

theorem nil : Spellable [] :=
  nofun

theorem cons {token : Token} {tokens : List Token} (h : token.IsSpellable)
    (hrest : Spellable tokens) : Spellable (token :: tokens) :=
  List.forall_mem_cons.mpr ⟨h, hrest⟩

theorem word (word : Keyword) {tokens : List Token} (h : Spellable tokens) :
    Spellable (.keyword word :: tokens) :=
  cons trivial h

theorem mark (mark : Sign) {tokens : List Token} (h : Spellable tokens) :
    Spellable (.sign mark :: tokens) :=
  cons trivial h

theorem append {a b : List Token} (ha : Spellable a) (hb : Spellable b) : Spellable (a ++ b) :=
  List.forall_mem_append.mpr ⟨ha, hb⟩

theorem flatten {lists : List (List Token)} (h : ∀ tokens ∈ lists, Spellable tokens) :
    Spellable lists.flatten := by
  intro token htoken
  obtain ⟨tokens, hmem, htoken⟩ := List.mem_flatten.mp htoken
  exact h tokens hmem token htoken

theorem commas {lists : List (List Token)} (h : ∀ tokens ∈ lists, Spellable tokens) :
    Spellable (commaSeparated lists) := by
  cases lists with
  | nil => exact nil
  | cons first rest =>
      obtain ⟨hfirst, hrest⟩ := List.forall_mem_cons.mp h
      refine hfirst.append fun token htoken => ?_
      obtain ⟨tokens, hmem, htoken⟩ := List.mem_flatMap.mp htoken
      exact mark .comma (hrest tokens hmem) token htoken

theorem parentheses {tokens : List Token} (h : Spellable tokens) :
    Spellable (inParentheses tokens) :=
  mark _ (h.append (mark _ nil))

theorem clause (first : Keyword) {content : Option (List Token)}
    (h : ∀ tokens ∈ content, Spellable tokens) : Spellable (clauseTokens first content) := by
  cases content with
  | none => exact nil
  | some tokens => exact word first (h tokens rfl)

theorem list (first second : Keyword) {lists : List (List Token)}
    (h : ∀ tokens ∈ lists, Spellable tokens) : Spellable (listTokens first second lists) := by
  cases lists with
  | nil => exact nil
  | cons content lists => exact word first (word second (commas h))

theorem names {names : List String} (h : ∀ name ∈ names, name ≠ "") :
    ∀ tokens ∈ names.map fun name => [Token.ident name], Spellable tokens :=
  List.forall_mem_map.mpr fun name hname => cons (h name hname) nil

theorem aliasName {name? : Option String} (h : ∀ name ∈ name?, name ≠ "") :
    Spellable (aliasTokens name?) := by
  refine clause .AS fun tokens htokens => ?_
  obtain ⟨name, hname, rfl⟩ := Option.map_eq_some_iff.mp htokens
  exact cons (h name hname) nil

theorem tableRef {table : TableRef} (h : table.IsWritable) : Spellable table.tokens :=
  cons h.name (aliasName h.aliasName)

/-- What an optional part is written as. -/
theorem ofOption {e? : Option Expr} (h : ∀ e ∈ e?, Spellable e.tokens) :
    ∀ tokens ∈ e?.map Expr.tokens, Spellable tokens := by
  intro tokens htokens
  obtain ⟨e, he, rfl⟩ := Option.map_eq_some_iff.mp htokens
  exact h e he

end Spellable

/-- A literal has a spelling. -/
theorem Value.spellable_token {v : Value} (h : v.IsWritable) : v.token.IsSpellable := by
  cases v with
  | boolean b => cases b <;> exact trivial
  | integer i => exact ⟨_, .inl rfl⟩
  | float d => exact ⟨_, .inr ⟨_, rfl⟩⟩
  | _ => exact trivial

open Spellable in
/-- The tokens of an expression have spellings, if those of what is in it
have. -/
theorem Expr.spellable (e : Expr) (h : e.IsWritable)
    (hoperands : ∀ o ∈ e.operands, Spellable o.tokens)
    (hquery : ∀ q ∈ e.query?, Spellable q.tokens) : Spellable e.tokens := by
  cases e with
  | all => exact mark _ nil
  | column table name =>
      cases table with
      | none => exact cons h.2 nil
      | some table => exact cons (h.1 table rfl) (mark _ (cons h.2 nil))
  | literal v => exact cons (v.spellable_token h) nil
  | parameter placeholder =>
      cases placeholder with
      | named name => exact cons h nil
      | positional ordinal => cases h
  | excluded column => cases h
  | call f arguments =>
      unfold Expr.tokens
      rw [Expr.tokensOfList_eq]
      exact cons h.1 (commas (List.forall_mem_map.mpr hoperands)).parentheses
  | unary op e =>
      have he := hoperands e List.mem_cons_self
      cases op with
      | isNull => exact (he.append (word _ (word _ nil))).parentheses
      | not => exact (word _ he).parentheses
      | _ => exact (mark _ he).parentheses
  | binary op l r =>
      have hl := hoperands l List.mem_cons_self
      have hr := hoperands r (List.mem_cons_of_mem _ List.mem_cons_self)
      have hop : op.token.IsSpellable := by cases op <;> exact trivial
      exact (hl.append (cons hop hr)).parentheses
  | inList e items =>
      obtain ⟨he, hitems⟩ := List.forall_mem_cons.mp hoperands
      unfold Expr.tokens
      rw [Expr.tokensOfList_eq]
      exact (he.append (word _ (commas
        (List.forall_mem_map.mpr hitems)).parentheses)).parentheses
  | «exists» q => exact word _ (hquery q rfl).parentheses
  | inQuery e q =>
      have he := hoperands e List.mem_cons_self
      exact (he.append (word _ (hquery q rfl).parentheses)).parentheses

namespace Select

open Spellable

variable {q : Select}

theorem spellable_withTokens (h : ∀ cte ∈ q.ctes, cte.IsWritable)
    (hbodies : ∀ cte ∈ q.ctes, Spellable cte.body.tokens) (recursive : Bool) :
    Spellable (withTokens recursive (q.ctes.map Cte.tokens)) := by
  have hctes : ∀ tokens ∈ q.ctes.map Cte.tokens, Spellable tokens := by
    refine List.forall_mem_map.mpr fun cte hcte => ?_
    obtain ⟨hname, hcolumns, -⟩ := h cte hcte
    have hmaterialized : Spellable (materializedTokens cte.materialized) := by
      unfold materializedTokens
      split
      · exact nil
      · exact word _ nil
      · exact word _ (word _ nil)
    have hlist : Spellable (columnListTokens cte.columns) := by
      unfold columnListTokens
      split
      · exact nil
      · exact (commas (names hcolumns)).parentheses
    have hident : (Token.ident cte.name).IsSpellable := hname
    exact (cons hident (hlist.append (word _ hmaterialized))).append (hbodies cte hcte).parentheses
  unfold withTokens
  split
  · exact nil
  · refine word _ (.append ?_ (commas hctes))
    cases recursive with
    | true => exact word _ nil
    | false => exact nil

theorem spellable_joins (h : ∀ join ∈ q.joins, join.IsWritable)
    (hpredicates : ∀ join ∈ q.joins, ∀ e ∈ join.predicate, Spellable e.tokens) :
    ∀ tokens ∈ q.joins.map Join.tokens, Spellable tokens := by
  refine List.forall_mem_map.mpr fun join hjoin => ?_
  have hkind : Spellable join.kind.tokens := by
    cases join.kind <;> exact word _ (word _ nil)
  exact hkind.append ((tableRef (h join hjoin).table).append
    (clause _ (ofOption (hpredicates join hjoin))))

/-- The tokens of a query have spellings, if those of what is in it
have. -/
theorem spellable (q : Select) (h : q.IsWritable)
    (hparts : q.Parts (fun e => Spellable e.tokens) (fun inner => Spellable inner.tokens)) :
    Spellable q.tokens := by
  have hexprs {es : List Expr} (hes : ∀ e ∈ es, Spellable e.tokens) :
      ∀ tokens ∈ es.map Expr.tokens, Spellable tokens := List.forall_mem_map.mpr hes
  have hctes := spellable_withTokens h.ctes hparts.ctes (q.ctes.any (·.recursive))
  have hcolumns : Spellable (selectTokens q.distinct (q.columns.map SelectItem.tokens)) := by
    have hitems : ∀ tokens ∈ q.columns.map SelectItem.tokens, Spellable tokens :=
      List.forall_mem_map.mpr fun item hitem =>
        (hparts.columns item hitem).append (aliasName (h.items item hitem).aliasName)
    refine word _ (.append ?_ (commas hitems))
    cases q.distinct with
    | true => exact word _ nil
    | false => exact nil
  have hfrom : Spellable (fromTokens q.source (q.joins.map Join.tokens)) := by
    refine clause _ fun tokens htokens => ?_
    obtain ⟨table, htable, rfl⟩ := Option.map_eq_some_iff.mp htokens
    exact (tableRef (h.source table htable)).append (flatten (spellable_joins h.joins hparts.joins))
  have hunions : Spellable (q.unions.map UnionBranch.tokens).flatten := by
    refine flatten (List.forall_mem_map.mpr fun branch hbranch => word _ (.append ?_ ?_))
    · cases branch.all with
      | true => exact word _ nil
      | false => exact nil
    · exact hparts.unions branch hbranch
  have hkeys : ∀ tokens ∈ q.orderBy.map SortKey.tokens, Spellable tokens := by
    refine List.forall_mem_map.mpr fun key hkey => (hparts.orderBy key hkey).append ?_
    cases key.direction with
    | ascending => exact nil
    | descending => exact word _ nil
  rw [q.tokens_eq, coreTokens, tailTokens]
  exact hctes.append ((hcolumns.append (hfrom.append ((clause _ (ofOption hparts.predicate)).append
    ((list _ _ (hexprs hparts.groupBy)).append (clause _ (ofOption hparts.having)))))).append
    (hunions.append ((list _ _ hkeys).append ((clause _ (ofOption hparts.limit)).append
      (clause _ (ofOption hparts.offset))))))

/-- A query as a text. -/
def text (q : Select) : String :=
  spelled q.tokens

end Select

-- ============================================================= read back

namespace Statement

open DialectDb.Parser DialectDb.Grammar

/-- What is read does not depend on where the next token is. -/
theorem takes_peekPosition {α : Type} {around : Surroundings} {f : Nat → Parser α}
    {tokens rest : List Token} {a : α} (h : ∀ position, Takes around (f position) tokens a rest) :
    Takes around (peekPosition >>= f) tokens a rest := by
  intro c hc
  obtain ⟨position, hposition⟩ := perform_peekPosition around c
  rw [perform_bind hposition]
  exact h position c hc

/-- A statement that takes all tokens is a whole text. -/
theorem takes_wholeStatement {around : Surroundings} (hend : around.failure = none) {g : Grammar}
    {tokens : List Token} {s : Statement} (h : Takes around (statement g) tokens s []) :
    Takes around (wholeStatement g) tokens s [] := by
  have hskip : Takes around (skipOver Sign.semicolon) [] () [] :=
    takes_bind (takes_accept_false nofun) takes_pure
  exact takes_bind h (takes_bind hskip (takes_bind (takes_peek_head hend) takes_pure))

/-- A query is a statement. -/
theorem takes_statement_select {around : Surroundings} {g : Grammar} {q : Select}
    (h : Takes around g.select q.tokens q []) :
    Takes around (statement g) q.tokens (.select q) [] := by
  obtain ⟨token, rest, htokens, hopens⟩ := q.tokens_opens
  rw [htokens] at h ⊢
  refine takes_peekPosition fun position => takes_bind takes_peek ?_
  rcases hopens with rfl | rfl <;> exact takes_map h

/-- A text is parsed as what a grammar with a level for each token takes
its tokens for. -/
theorem parse_of_takes {version : DialectVersion} {text : String} {tokens : List Token}
    {s : Statement}
    (hlex : ∃ lexemes, lexemes.map (·.token) = tokens ∧
      Lexer.lex version.dialect.lexical text = ⟨lexemes, none⟩)
    (h : Takes ⟨version, none, text.utf8ByteSize, false⟩
      (wholeStatement (ofDepth (tokens.length + 1))) tokens s []) :
    parse version text = .ok s := by
  obtain ⟨lexemes, htokens, hlex⟩ := hlex
  have hlength : tokens.length = lexemes.length := by
    rw [← htokens, List.length_map]
  rw [hlength] at h
  obtain ⟨c, hread, -⟩ := h { lexemes } htokens
  show readTokens wholeStatement version text.utf8ByteSize
    (Lexer.lex version.dialect.lexical text) = .ok s
  rw [hlex]
  show ((wholeStatement (ofDepth (lexemes.length + 1))).perform _ { lexemes } >>= fun p =>
    pure p.1) = _
  rw [hread]
  rfl

/-- A query that can be written is what its text is parsed as. -/
theorem parse_text {q : Select} (h : q.Writable) :
    parse ⟨.postgreSql, 17⟩ q.text = .ok (.select q) := by
  have hspellable : Spellable q.tokens := h.induction Expr.spellable Select.spellable
  have hadmits : Admits ⟨⟨.postgreSql, 17⟩, none, q.text.utf8ByteSize, false⟩ :=
    ⟨rfl, rfl, rfl, rfl, rfl, rfl⟩
  have hquery := (rereads_writable hadmits h q.tokens.length (Nat.le_refl _)).1 [] (.nil 9)
  rw [List.append_nil] at hquery
  exact parse_of_takes (Lexer.lex_spelled rfl rfl hspellable)
    (takes_wholeStatement rfl (takes_statement_select hquery))

-- =========================================================== an instance

/-- A query of an expression for each row of a table that satisfies a
condition. -/
def plainQuery (column : Expr) (table : Option String) (predicate : Option Expr) : Select where
  ctes := []
  distinct := false
  columns := [⟨column, none⟩]
  source := table.map (⟨·, none, []⟩)
  joins := []
  predicate
  groupBy := []
  having := none
  unions := []
  orderBy := []
  offset := none
  limit := none
  queryHints := []

theorem plainQuery_writable {column : Expr} {table : Option String} {predicate : Option Expr}
    (hcolumn : column.Writable) (htable : ∀ name ∈ table, name ≠ "")
    (hpredicate : ∀ e ∈ predicate, e.Writable) : (plainQuery column table predicate).Writable := by
  have hsource : ∀ t ∈ (plainQuery column table predicate).source, t.IsWritable := by
    intro t ht
    obtain ⟨name, hname, rfl⟩ := Option.map_eq_some_iff.mp ht
    exact ⟨htable name hname, by simp, rfl⟩
  have own : (plainQuery column table predicate).IsWritable := by
    constructor
    case recursive => exact ⟨false, by simp [plainQuery]⟩
    case items => exact List.forall_mem_singleton.mpr ⟨by simp, fun _ => rfl⟩
    case source => exact hsource
    all_goals simp [plainQuery]
  refine .intro _ own ?_ (List.forall_mem_singleton.mpr hcolumn) ?_ hpredicate ?_ ?_ ?_ ?_ ?_ ?_
  all_goals simp [plainQuery]

/-- The numbers up to a parameter, each of them one more than another
one. -/
def countedNumbers : Cte where
  name := "c"
  columns := ["n"]
  recursive := true
  materialized := some false
  body :=
    { plainQuery (.literal (.integer 1)) none none with
      unions := [⟨true, plainQuery (.binary .add (.column none "n") (.literal (.integer 1)))
        (some "c") (some (.binary .less (.column none "n") (.parameter (.named "last"))))⟩] }

example : countedNumbers.body.text =
    "SELECT 1 UNION ALL SELECT ( \"n\" + 1 ) FROM \"c\" WHERE ( \"n\" < @last )" := by
  decide +kernel

/-- A query with a named query, joins, a subquery and most clauses. -/
def countedMatches : Select where
  ctes := [countedNumbers]
  distinct := true
  columns := [⟨.column (some "x") "n", none⟩, ⟨.call "count" [.all], some "times"⟩]
  source := some ⟨"c", some "x", []⟩
  joins :=
    [⟨.left, ⟨"t", none, []⟩, some (.unary .isNull (.column none "a"))⟩,
      ⟨.cross, ⟨"u", none, []⟩, none⟩]
  predicate := some (.inQuery (.column none "a") (plainQuery (.column none "b") (some "u")
    (some (.inList (.column none "b") [.literal (.string "it's"), .literal .null]))))
  groupBy := [.column (some "x") "n"]
  having := none
  unions := []
  orderBy := [⟨.column none "times", .descending⟩]
  offset := none
  limit := some (.literal (.float ⟨0x4415AF1D78B58C40⟩))
  queryHints := []

theorem countedNumbers_writable : countedNumbers.body.Writable := by
  have name : (Expr.column none "n").Writable := .leaf ⟨by simp, by decide⟩ rfl rfl
  have one : (Expr.literal (.integer 1)).Writable := .leaf (show (0 : Int) ≤ 1 by decide) rfl rfl
  have last : (Expr.parameter (.named "last")).Writable :=
    .leaf (show Lexer.isIdentifier "last" = true by decide) rfl rfl
  have sum : (Expr.binary .add (.column none "n") (.literal (.integer 1))).Writable :=
    .node trivial (by simp [Expr.operands, name, one]) rfl
  have bound : (Expr.binary .less (.column none "n") (.parameter (.named "last"))).Writable :=
    .node trivial (by simp [Expr.operands, name, last]) rfl
  have further : (plainQuery (.binary .add (.column none "n") (.literal (.integer 1))) (some "c")
      (some (.binary .less (.column none "n") (.parameter (.named "last"))))).Writable :=
    plainQuery_writable sum (by simp) (by simpa using bound)
  have own : countedNumbers.body.IsWritable := by
    constructor
    case recursive => exact ⟨false, by simp [countedNumbers, plainQuery]⟩
    case items => exact List.forall_mem_singleton.mpr ⟨by simp, fun _ => rfl⟩
    case unions => exact List.forall_mem_singleton.mpr ⟨⟨rfl, rfl, rfl, rfl, rfl⟩, rfl⟩
    all_goals simp [countedNumbers, plainQuery]
  refine .intro _ own ?_ (List.forall_mem_singleton.mpr one) ?_ ?_ ?_ ?_
    (List.forall_mem_singleton.mpr further) ?_ ?_ ?_
  all_goals simp [countedNumbers, plainQuery]

theorem countedMatches_isWritable : countedMatches.IsWritable := by
  have table {name : String} (h : name ≠ "") : (TableRef.mk name none []).IsWritable :=
    ⟨h, by simp, rfl⟩
  constructor
  case recursive => exact ⟨true, List.forall_mem_singleton.mpr rfl⟩
  case ctes => exact List.forall_mem_singleton.mpr ⟨by decide, by simp [countedNumbers], rfl⟩
  case items =>
    refine List.forall_mem_cons.mpr ⟨⟨by simp, by simp⟩, ?_⟩
    exact List.forall_mem_singleton.mpr ⟨by simp, by simp⟩
  case source =>
    intro t ht
    obtain rfl := Option.some.inj ht
    exact ⟨by decide, by simp, rfl⟩
  case joins =>
    refine List.forall_mem_cons.mpr ⟨⟨table (by decide), by simp⟩, ?_⟩
    exact List.forall_mem_singleton.mpr ⟨table (by decide), by simp⟩
  all_goals simp [countedMatches]

theorem countedMatches_writable : countedMatches.Writable := by
  have name {name : String} (h : name ≠ "") : (Expr.column none name).Writable :=
    .leaf ⟨by simp, h⟩ rfl rfl
  have field : (Expr.column (some "x") "n").Writable := .leaf ⟨by simp, by decide⟩ rfl rfl
  have star : Expr.all.Writable := .leaf trivial rfl rfl
  have count : (Expr.call "count" [.all]).Writable :=
    .node ⟨by decide, fun _ => rfl⟩ (List.forall_mem_singleton.mpr star) rfl
  have missing : (Expr.unary .isNull (.column none "a")).Writable :=
    .node trivial (List.forall_mem_singleton.mpr (name (by decide))) rfl
  have text : (Expr.literal (.string "it's")).Writable := .leaf trivial rfl rfl
  have null : (Expr.literal .null).Writable := .leaf trivial rfl rfl
  have listed : (Expr.inList (.column none "b")
      [.literal (.string "it's"), .literal .null]).Writable :=
    .node (List.cons_ne_nil _ _) (by simp [Expr.operands, name, text, null]) rfl
  have subquery : (plainQuery (.column none "b") (some "u") (some (.inList (.column none "b")
      [.literal (.string "it's"), .literal .null]))).Writable :=
    plainQuery_writable (name (by decide)) (by simp) (by simpa using listed)
  have found : (Expr.inQuery (.column none "a") (plainQuery (.column none "b") (some "u")
      (some (.inList (.column none "b") [.literal (.string "it's"), .literal .null])))).Writable :=
    .intro _ trivial (List.forall_mem_singleton.mpr (name (by decide)))
      (by simpa [Expr.query?] using subquery)
  have limit : (Expr.literal (.float ⟨0x4415AF1D78B58C40⟩)).Writable :=
    .leaf ⟨by decide, by decide⟩ rfl rfl
  refine .intro _ countedMatches_isWritable (List.forall_mem_singleton.mpr countedNumbers_writable)
    ?_ ?_ ?_ ?_ ?_ ?_ ?_ ?_ ?_
  all_goals simp [countedMatches, name, field, count, missing, found, limit]

/-- So is the text of a query with most clauses. -/
theorem parse_text_countedMatches :
    countedMatches.Writable ∧
      parse ⟨.postgreSql, 17⟩ countedMatches.text = .ok (.select countedMatches) :=
  ⟨countedMatches_writable, parse_text countedMatches_writable⟩

end Statement

end DialectDb
