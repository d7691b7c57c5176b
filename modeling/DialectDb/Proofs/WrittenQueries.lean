/-
Queries written as tokens, in one way: the clauses in the order of the
grammar, an operator with its operands between parentheses, identifiers
as they are, every alias behind AS. `Writable` says which trees are
written so: those that a text can stand for where the dialect has no
hints, and numbers are no less than zero because a sign is an operator.

A number that is no integer is written as the decimal that it is, with
an exponent, so that it is not taken for an integer.
-/
import DialectDb.Proofs.ExactDecimals
import DialectDb.Proofs.Nodes
import DialectDb.Proofs.Rendering
import DialectDb.Proofs.WellFormed

namespace DialectDb

namespace Value

/-- A value that a literal can stand for. -/
def IsWritable : Value → Prop
  | .integer i => 0 ≤ i.toInt
  | .float d => d.IsPlain
  | _ => True

/-- The token that a value is written as. -/
def token : Value → Token
  | .null => .keyword .NULL
  | .boolean true => .keyword .TRUE
  | .boolean false => .keyword .FALSE
  | .integer i => .number (toString i.toInt.toNat)
  | .float d => .number d.exactText
  | .string s => .string s

end Value

-- ================================================================ parts

/-- Tokens between parentheses. -/
def inParentheses (tokens : List Token) : List Token :=
  .sign .openParen :: (tokens ++ [.sign .closeParen])

/-- A clause that a word opens, if it is there. -/
def clauseTokens (word : Keyword) : Option (List Token) → List Token
  | none => []
  | some tokens => .keyword word :: tokens

/-- A clause with a list behind two words, if there is something in the
list. -/
def listTokens (first second : Keyword) : List (List Token) → List Token
  | [] => []
  | lists => .keyword first :: .keyword second :: commaSeparated lists

def aliasTokens : Option String → List Token :=
  fun name? => clauseTokens .AS (name?.map fun name => [.ident name])

def TableRef.tokens (t : TableRef) : List Token :=
  .ident t.name :: aliasTokens t.aliasName

def JoinKind.tokens : JoinKind → List Token
  | cross => [.keyword .CROSS, .keyword .JOIN]
  | inner => [.keyword .INNER, .keyword .JOIN]
  | left => [.keyword .LEFT, .keyword .JOIN]
  | right => [.keyword .RIGHT, .keyword .JOIN]

def SortDirection.tokens : SortDirection → List Token
  | ascending => []
  | descending => [.keyword .DESC]

/-- An operator with its operand. -/
def UnaryOp.tokens (op : UnaryOp) (operand : List Token) : List Token :=
  match op.before? with
  | some (token, _) => token :: operand
  | none => operand ++ [.keyword .IS, .keyword .NULL]

def Placeholder.token : Placeholder → Token
  | .named name => .parameter name
  | .positional _ => .sign .question

def columnListTokens : List String → List Token
  | [] => []
  | names => inParentheses (commaSeparated (names.map fun name => [.ident name]))

def materializedTokens : Option Bool → List Token
  | none => []
  | some true => [.keyword .MATERIALIZED]
  | some false => [.keyword .NOT, .keyword .MATERIALIZED]

/-- What is before the query of a named query. -/
def Cte.headTokens (name : String) (columns : List String) (materialized : Option Bool) :
    List Token :=
  .ident name :: (columnListTokens columns ++ .keyword .AS :: materializedTokens materialized)

def withTokens (recursive : Bool) : List (List Token) → List Token
  | [] => []
  | ctes => .keyword .WITH ::
    ((if recursive then [.keyword .RECURSIVE] else []) ++ commaSeparated ctes)

def unionTokens (all : Bool) (branch : List Token) : List Token :=
  .keyword .UNION :: ((if all then [.keyword .ALL] else []) ++ branch)

def joinTokens (kind : JoinKind) (table : TableRef) (predicate : Option (List Token)) :
    List Token :=
  kind.tokens ++ (table.tokens ++ clauseTokens .ON predicate)

def selectTokens (distinct : Bool) (columns : List (List Token)) : List Token :=
  .keyword .SELECT ::
    ((if distinct then [.keyword .DISTINCT] else []) ++ commaSeparated columns)

/-- FROM with the table and the joins behind it. -/
def fromTokens (source : Option TableRef) (joins : List (List Token)) : List Token :=
  clauseTokens .FROM (source.map fun table => table.tokens ++ joins.flatten)

-- ============================================================== written

mutual

def Expr.tokens : Expr → List Token
  | .all => [.sign .asterisk]
  | .column none name => [.ident name]
  | .column (some table) name => [.ident table, .sign .period, .ident name]
  | .literal v => [v.token]
  | .parameter placeholder => [placeholder.token]
  | .excluded column => [.ident "excluded", .sign .period, .ident column]
  | .call f arguments =>
    .ident f :: inParentheses (commaSeparated (Expr.tokensOfList arguments))
  | .unary op e => inParentheses (op.tokens e.tokens)
  | .binary op l r => inParentheses (l.tokens ++ op.token :: r.tokens)
  | .inList e items =>
    inParentheses (e.tokens ++
      .keyword .IN :: inParentheses (commaSeparated (Expr.tokensOfList items)))
  | .exists q => .keyword .EXISTS :: inParentheses q.tokens
  | .inQuery e q => inParentheses (e.tokens ++ .keyword .IN :: inParentheses q.tokens)
termination_by structural e => e

def Expr.tokensOfList : List Expr → List (List Token)
  | [] => []
  | e :: es => e.tokens :: Expr.tokensOfList es
termination_by structural es => es

def Expr.tokensOfOption : Option Expr → Option (List Token)
  | none => none
  | some e => some e.tokens
termination_by structural e => e

def Select.tokens : Select → List Token
  | { ctes, distinct, columns, source, joins, predicate, groupBy, having, unions, orderBy,
      offset, limit, .. } =>
    withTokens (ctes.any (·.recursive)) (Cte.tokensOfList ctes) ++
    (selectTokens distinct (SelectItem.tokensOfList columns) ++
    (fromTokens source (Join.tokensOfList joins) ++
    (clauseTokens .WHERE (Expr.tokensOfOption predicate) ++
    (listTokens .GROUP .BY (Expr.tokensOfList groupBy) ++
    (clauseTokens .HAVING (Expr.tokensOfOption having) ++
    ((UnionBranch.tokensOfList unions).flatten ++
    (listTokens .ORDER .BY (SortKey.tokensOfList orderBy) ++
    (clauseTokens .LIMIT (Expr.tokensOfOption limit) ++
    clauseTokens .OFFSET (Expr.tokensOfOption offset)))))))))
termination_by structural q => q

def Cte.tokensOfList : List Cte → List (List Token)
  | [] => []
  | { name, columns, materialized, body, .. } :: rest =>
    (Cte.headTokens name columns materialized ++ inParentheses body.tokens) ::
      Cte.tokensOfList rest
termination_by structural ctes => ctes

def SelectItem.tokensOfList : List SelectItem → List (List Token)
  | [] => []
  | { expr, aliasName } :: rest =>
    (expr.tokens ++ aliasTokens aliasName) :: SelectItem.tokensOfList rest
termination_by structural items => items

def Join.tokensOfList : List Join → List (List Token)
  | [] => []
  | { kind, table, predicate } :: rest =>
    joinTokens kind table (Expr.tokensOfOption predicate) :: Join.tokensOfList rest
termination_by structural joins => joins

def UnionBranch.tokensOfList : List UnionBranch → List (List Token)
  | [] => []
  | { all, select } :: rest => unionTokens all select.tokens :: UnionBranch.tokensOfList rest
termination_by structural branches => branches

def SortKey.tokensOfList : List SortKey → List (List Token)
  | [] => []
  | { expr, direction } :: rest =>
    (expr.tokens ++ direction.tokens) :: SortKey.tokensOfList rest
termination_by structural keys => keys

end

-- ====================================================== part by part

def Cte.tokens (cte : Cte) : List Token :=
  Cte.headTokens cte.name cte.columns cte.materialized ++ inParentheses cte.body.tokens

def SelectItem.tokens (item : SelectItem) : List Token :=
  item.expr.tokens ++ aliasTokens item.aliasName

def Join.tokens (join : Join) : List Token :=
  joinTokens join.kind join.table (join.predicate.map Expr.tokens)

def UnionBranch.tokens (branch : UnionBranch) : List Token :=
  unionTokens branch.all branch.select.tokens

def SortKey.tokens (key : SortKey) : List Token :=
  key.expr.tokens ++ key.direction.tokens

/-- A function on lists that goes through them is that of all items. -/
private theorem eq_map {α β : Type} (all : List α → List β) (item : α → β) (hnil : all [] = [])
    (hcons : ∀ a rest, all (a :: rest) = item a :: all rest) (items : List α) :
    all items = items.map item := by
  induction items with
  | nil => exact hnil
  | cons a rest ih => rw [hcons, ih, List.map_cons]

theorem Expr.tokensOfList_eq (es : List Expr) : Expr.tokensOfList es = es.map Expr.tokens :=
  eq_map _ _ rfl (fun _ _ => rfl) es

theorem Expr.tokensOfOption_eq (e? : Option Expr) :
    Expr.tokensOfOption e? = e?.map Expr.tokens := by
  cases e? <;> rfl

theorem Cte.tokensOfList_eq (ctes : List Cte) : Cte.tokensOfList ctes = ctes.map Cte.tokens :=
  eq_map _ _ rfl (fun ⟨_, _, _, _, _⟩ _ => rfl) ctes

theorem SelectItem.tokensOfList_eq (items : List SelectItem) :
    SelectItem.tokensOfList items = items.map SelectItem.tokens :=
  eq_map _ _ rfl (fun ⟨_, _⟩ _ => rfl) items

theorem Join.tokensOfList_eq (joins : List Join) :
    Join.tokensOfList joins = joins.map Join.tokens :=
  eq_map _ _ rfl (fun ⟨_, _, predicate⟩ _ => by cases predicate <;> rfl) joins

theorem UnionBranch.tokensOfList_eq (branches : List UnionBranch) :
    UnionBranch.tokensOfList branches = branches.map UnionBranch.tokens :=
  eq_map _ _ rfl (fun ⟨_, _⟩ _ => rfl) branches

theorem SortKey.tokensOfList_eq (keys : List SortKey) :
    SortKey.tokensOfList keys = keys.map SortKey.tokens :=
  eq_map _ _ rfl (fun ⟨_, _⟩ _ => rfl) keys

/-- A query up to HAVING. -/
def Select.coreTokens (q : Select) : List Token :=
  selectTokens q.distinct (q.columns.map SelectItem.tokens) ++
  (fromTokens q.source (q.joins.map Join.tokens) ++
  (clauseTokens .WHERE (q.predicate.map Expr.tokens) ++
  (listTokens .GROUP .BY (q.groupBy.map Expr.tokens) ++
  clauseTokens .HAVING (q.having.map Expr.tokens))))

/-- What applies to all branches of a query. -/
def Select.tailTokens (q : Select) : List Token :=
  listTokens .ORDER .BY (q.orderBy.map SortKey.tokens) ++
  (clauseTokens .LIMIT (q.limit.map Expr.tokens) ++
  clauseTokens .OFFSET (q.offset.map Expr.tokens))

theorem Select.tokens_eq (q : Select) :
    q.tokens = withTokens (q.ctes.any (·.recursive)) (q.ctes.map Cte.tokens) ++
      (q.coreTokens ++ ((q.unions.map UnionBranch.tokens).flatten ++ q.tailTokens)) := by
  cases q
  simp only [Select.tokens, Select.coreTokens, Select.tailTokens, Cte.tokensOfList_eq,
    SelectItem.tokensOfList_eq, Join.tokensOfList_eq, Expr.tokensOfList_eq,
    Expr.tokensOfOption_eq, UnionBranch.tokensOfList_eq, SortKey.tokensOfList_eq,
    List.append_assoc]

/-- A branch of UNION is all core. -/
theorem Select.tokens_eq_coreTokens {q : Select} (h : q.IsBranch) (hlimit : q.limit = none) :
    q.tokens = q.coreTokens := by
  rw [q.tokens_eq, Select.tailTokens, h.ctes, h.unions, h.orderBy, h.offset, hlimit]
  exact List.append_nil _

-- ============================================================= writable

namespace Expr

/-- The query that an expression holds, besides its operands. -/
def query? : Expr → Option Select
  | .exists q => some q
  | .inQuery _ q => some q
  | _ => none

/-- What an expression has to be to be written, besides its parts. Names
are not empty, placeholders have names that a text can give them, and `*`
is an argument of count only. -/
def IsWritable : Expr → Prop
  | .column table name => (∀ t ∈ table, t ≠ "") ∧ name ≠ ""
  | .literal v => v.IsWritable
  | .parameter (.named name) => Lexer.isIdentifier name = true
  | .parameter (.positional _) => False
  | .excluded _ => False
  | .call f arguments => f ≠ "" ∧ (.all ∈ arguments → f = "count")
  | .inList _ items => items ≠ []
  | _ => True

end Expr

structure TableRef.IsWritable (t : TableRef) : Prop where
  name : t.name ≠ ""
  aliasName : ∀ name ∈ t.aliasName, name ≠ ""
  hints : t.hints = []

/-- A named query has no named queries of its own. -/
structure Cte.IsWritable (cte : Cte) : Prop where
  name : cte.name ≠ ""
  columns : ∀ column ∈ cte.columns, column ≠ ""
  body : cte.body.ctes = []

structure SelectItem.IsWritable (item : SelectItem) : Prop where
  aliasName : ∀ name ∈ item.aliasName, name ≠ ""
  star : item.expr = .all → item.aliasName = none

structure Join.IsWritable (join : Join) : Prop where
  table : join.table.IsWritable
  predicate : join.predicate = none ↔ join.kind = .cross

/-- What a query has to be to be written, besides its parts. Its named
queries are recursive together or not at all, and a join needs a table to
join to. -/
structure Select.IsWritable (q : Select) : Prop where
  recursive : ∃ recursive, ∀ cte ∈ q.ctes, cte.recursive = recursive
  ctes : ∀ cte ∈ q.ctes, cte.IsWritable
  columns : q.columns ≠ []
  items : ∀ item ∈ q.columns, item.IsWritable
  source : ∀ table ∈ q.source, table.IsWritable
  alone : q.source = none → q.joins = []
  joins : ∀ join ∈ q.joins, join.IsWritable
  unions : ∀ branch ∈ q.unions, branch.select.IsBranch ∧ branch.select.limit = none
  queryHints : q.queryHints = []

mutual

/-- An expression that can be written, with all that is in it. -/
inductive Expr.Writable : Expr → Prop
  | intro (e : Expr) (own : e.IsWritable) (operands : ∀ o ∈ e.operands, Expr.Writable o)
      (query : ∀ q ∈ e.query?, Select.Writable q) : Expr.Writable e

/-- A query that can be written, with all that is in it. -/
inductive Select.Writable : Select → Prop
  | intro (q : Select) (own : q.IsWritable)
      (ctes : ∀ cte ∈ q.ctes, Select.Writable cte.body)
      (columns : ∀ item ∈ q.columns, Expr.Writable item.expr)
      (joins : ∀ join ∈ q.joins, ∀ e ∈ join.predicate, Expr.Writable e)
      (predicate : ∀ e ∈ q.predicate, Expr.Writable e)
      (groupBy : ∀ e ∈ q.groupBy, Expr.Writable e)
      (having : ∀ e ∈ q.having, Expr.Writable e)
      (unions : ∀ branch ∈ q.unions, Select.Writable branch.select)
      (orderBy : ∀ key ∈ q.orderBy, Expr.Writable key.expr)
      (offset : ∀ e ∈ q.offset, Expr.Writable e)
      (limit : ∀ e ∈ q.limit, Expr.Writable e) : Select.Writable q

end

/-- An expression with no query in it can be written if its operands
can. -/
theorem Expr.Writable.node {e : Expr} (own : e.IsWritable) (h : ∀ o ∈ e.operands, o.Writable)
    (hquery : e.query? = none) : e.Writable := by
  refine .intro e own h ?_
  rw [hquery]
  intro q hq
  cases hq

theorem Expr.Writable.leaf {e : Expr} (own : e.IsWritable) (hoperands : e.operands = [])
    (hquery : e.query? = none) : e.Writable := by
  refine .node own ?_ hquery
  rw [hoperands]
  exact List.forall_mem_nil _

/-- A property of the expressions right in a query, and one of the
queries. -/
structure Select.Parts (p : Expr → Prop) (s : Select → Prop) (q : Select) : Prop where
  ctes : ∀ cte ∈ q.ctes, s cte.body
  columns : ∀ item ∈ q.columns, p item.expr
  joins : ∀ join ∈ q.joins, ∀ e ∈ join.predicate, p e
  predicate : ∀ e ∈ q.predicate, p e
  groupBy : ∀ e ∈ q.groupBy, p e
  having : ∀ e ∈ q.having, p e
  unions : ∀ branch ∈ q.unions, s branch.select
  orderBy : ∀ key ∈ q.orderBy, p key.expr
  offset : ∀ e ∈ q.offset, p e
  limit : ∀ e ∈ q.limit, p e

theorem Select.Parts.mono {p p' : Expr → Prop} {s s' : Select → Prop} {q : Select}
    (h : q.Parts p s) (hexpr : ∀ e, p e → p' e) (hselect : ∀ q, s q → s' q) : q.Parts p' s' where
  ctes cte hcte := hselect _ (h.ctes cte hcte)
  columns item hitem := hexpr _ (h.columns item hitem)
  joins join hjoin e he := hexpr e (h.joins join hjoin e he)
  predicate e he := hexpr e (h.predicate e he)
  groupBy e he := hexpr e (h.groupBy e he)
  having e he := hexpr e (h.having e he)
  unions branch hbranch := hselect _ (h.unions branch hbranch)
  orderBy key hkey := hexpr _ (h.orderBy key hkey)
  offset e he := hexpr e (h.offset e he)
  limit e he := hexpr e (h.limit e he)

/-- What is shown of everything that can be written, from what is right
in it. -/
theorem Select.Writable.induction {p : Expr → Prop} {s : Select → Prop}
    (hexpr : ∀ e : Expr, e.IsWritable → (∀ o ∈ e.operands, p o) → (∀ q ∈ e.query?, s q) → p e)
    (hselect : ∀ q : Select, q.IsWritable → q.Parts p s → s q) {q : Select} (h : q.Writable) :
    s q :=
  @Select.Writable.rec (fun e _ => p e) (fun q _ => s q) (fun e own _ _ => hexpr e own)
    (fun q own _ _ _ _ _ _ _ _ _ _ ctes columns joins predicate groupBy having unions orderBy
        offset limit =>
      hselect q own
        ⟨ctes, columns, joins, predicate, groupBy, having, unions, orderBy, offset, limit⟩) q h

end DialectDb
