/-
The grammar of queries: WITH, the SELECT cores that UNION joins, and
what applies to all of them, ORDER BY and paging. Whether the dialect
version has a construct is asked as soon as the construct is recognized,
and the answer only ever ends the reading.
-/
import DialectDb.Grammar.Expression

namespace DialectDb.Grammar

open DialectDb.Parser

-- =============================================================== names

/-- Reads a table name. Qualifiers before it are dropped. -/
def tableName : Parser String := do
  iterate (fun _ => do if ← accept Sign.period then some <$> identifier else pure none)
    (← identifier)

def aliasName? : Parser (Option String) := do
  if ← accept Keyword.AS then some <$> identifier
  else
    match ← peek with
    | some (.ident _) => some <$> identifier
    | _ => pure none

-- =============================================================== hints

/-- Whether the dialect spells hints in a given way. -/
def spellsHints (style : HintStyle) (v : DialectVersion) : Bool :=
  v.dialect.hints = style

/-- Reads a table hint, with an argument or a list of them. -/
def tableHint : Parser TableHint := do
  let name ←
    match ← next with
    | .ident name => pure (Text.upper name)
    | .keyword word => pure word.text
    | found => fault (.expected "table hint" found)
  if ← accept Sign.equal then
    let argument ← identifier
    pure (.table (name ++ "(" ++ argument ++ ")"))
  else if (← peek) = some (Token.sign .openParen) then
    let arguments ← identifierList
    pure (.table (name ++ "(" ++ ", ".intercalate arguments ++ ")"))
  else pure (.table name)

def indexScope? : Parser (Option IndexScope) :=
  clause? .FOR do
    match ← next with
    | .keyword .JOIN => pure .join
    | .keyword .ORDER => expect Keyword.BY; pure .orderBy
    | .keyword .GROUP => expect Keyword.BY; pure .groupBy
    | found => fault (.unexpected found)

def indexName : Parser String := do
  let found ← next
  match found, nameOf? found with
  | .keyword .PRIMARY, _ => pure "primary"
  | _, some name => pure name
  | _, none => fault (.expected "index name" found)

/-- Reads the names of indexes, after the opening parenthesis. There may
be none. -/
def indexNames : Parser (List String) :=
  iterate (fun names => do
    if ← accept Sign.closeParen then pure none
    else
      if !names.isEmpty then expect Sign.comma
      pure (some (names ++ [← indexName]))) []

/-- Reads an index hint. -/
def indexHint : Parser TableHint := do
  let action ←
    match ← next with
    | .keyword .USE => pure .use
    | .keyword .IGNORE => pure .ignore
    | .keyword .FORCE => pure .force
    | found => fault (.unexpected found)
  match ← next with
  | .keyword .INDEX | .keyword .KEY => pure ()
  | found => fault (.expected "INDEX or KEY" found)
  let scope ← indexScope?
  expect Sign.openParen
  pure (.index action scope (← indexNames))

/-- Reads the hints after a table. -/
def tableHints : Parser (List TableHint) :=
  iterate (fun hints => do
    match ← peek with
    | some (.keyword .WITH) =>
      require (spellsHints .table) .withTableHints
      let _ ← next
      pure (some (hints ++ (← parenthesized (commaList tableHint))))
    | some (.sign .openParen) =>
      require (spellsHints .table) .tableHints
      pure (some (hints ++ (← parenthesized (commaList tableHint))))
    | some (.keyword .USE) | some (.keyword .IGNORE) | some (.keyword .FORCE) =>
      require (spellsHints .index) .indexHints
      pure (some (hints ++ [← indexHint]))
    | _ => pure none) []

/-- Reads the words of query hints, after the opening parenthesis, as
the hints that are complete and the words of the one that is not. -/
def queryHintWords : Parser (List String × List String) :=
  iterate (fun (hints, words) => do
    match ← next with
    | .sign .closeParen => pure none
    | .sign .comma => pure (some (hints ++ [" ".intercalate words], []))
    | token => pure (some (hints, words ++ [Text.upper token.text]))) ([], [])

/-- Reads query hints, if there are any. A hint is kept as the text of
its tokens in upper case. -/
def queryHints : Parser (List String) := do
  let hints? ← clause? .OPTION do
    require (spellsHints .table) .queryHints
    expect Sign.openParen
    let (hints, words) ← queryHintWords
    let hints := hints ++ [" ".intercalate words]
    if hints.contains "" then fault .emptyQueryHint else pure hints
  pure (hints?.getD [])

-- ============================================================== tables

def tableRef : Parser TableRef := do
  let name ← tableName
  let aliasName ← aliasName?
  pure ⟨name, aliasName, ← tableHints⟩

/-- Reads how a table is joined, if one is. A comma is a cross join. -/
def joinKind? : Parser (Option JoinKind) := do
  if ← accept Sign.comma then pure (some .cross)
  else if ← accept Keyword.JOIN then pure (some .inner)
  else if ← accept Keyword.CROSS then
    expect Keyword.JOIN
    pure (some .cross)
  else if ← accept Keyword.INNER then
    expect Keyword.JOIN
    pure (some .inner)
  else if ← accept Keyword.LEFT then
    skipOver Keyword.OUTER
    expect Keyword.JOIN
    pure (some .left)
  else if ← accept Keyword.RIGHT then
    skipOver Keyword.OUTER
    expect Keyword.JOIN
    pure (some .right)
  else pure none

def join? (g : Grammar) : Parser (Option Join) := do
  match ← joinKind? with
  | none => pure none
  | some kind =>
    let table ← tableRef
    if kind = .cross then pure (some ⟨kind, table, none⟩)
    else
      expect Keyword.ON
      pure (some ⟨kind, table, some (← g.expression 0)⟩)

def joins (g : Grammar) : Parser (List Join) :=
  iterate (fun joins => do pure ((← join? g).map fun join => joins ++ [join])) []

-- ============================================================= clauses

def whereClause (g : Grammar) : Parser (Option Expr) :=
  clause? .WHERE (g.expression 0)

/-- Reads `TOP n`, if it is there. The count is a single operand, so
that a star after it is not a multiplication. -/
def topClause (g : Grammar) : Parser (Option Expr) :=
  clause? .TOP do
    require (·.dialect.top) .top
    operand g

/-- Reads a selected expression. A star has no alias. -/
def selectItem (g : Grammar) : Parser SelectItem := do
  let e ← g.expression 0
  if e = .all then pure ⟨e, none⟩ else pure ⟨e, ← aliasName?⟩

def groupByClause (g : Grammar) : Parser (List Expr) := do
  let keys? ← clause? .GROUP do
    expect Keyword.BY
    commaList (g.expression 0)
  pure (keys?.getD [])

/-- Reads a sort key; ascending unless told otherwise. -/
def sortKey (g : Grammar) : Parser SortKey := do
  let e ← g.expression 0
  let direction? ← nextMap? fun
    | .keyword .ASC => some .ascending
    | .keyword .DESC => some .descending
    | _ => none
  pure ⟨e, direction?.getD .ascending⟩

def orderByClause (g : Grammar) : Parser (List SortKey) := do
  let keys? ← clause? .ORDER do
    expect Keyword.BY
    commaList (sortKey g)
  pure (keys?.getD [])

/-- Reads a query up to HAVING. -/
def core (g : Grammar) : Parser Select := do
  expect Keyword.SELECT
  let early ← topClause g
  let distinct ← accept Keyword.DISTINCT
  if !distinct then skipOver Keyword.ALL
  let limit ← if early.isSome then pure early else topClause g
  let columns ← commaList (selectItem g)
  let tables? ← clause? .FROM do
    let source ← tableRef
    pure (source, ← joins g)
  let predicate ← whereClause g
  let groupBy ← groupByClause g
  let having ← clause? .HAVING (g.expression 0)
  pure {
    ctes := [], distinct, columns, source := tables?.map Prod.fst
    joins := (tables?.map Prod.snd).getD [], predicate, groupBy, having, unions := []
    orderBy := [], offset := none, limit, queryHints := [] }

-- ============================================================== paging

structure Paging where
  offset : Option Expr := none
  limit : Option Expr := none

/-- Reads the rest of FETCH FIRST|NEXT [n] ROW|ROWS ONLY. The count is 1
if it is left out. -/
def fetchCount (g : Grammar) : Parser Expr := do
  match ← next with
  | .keyword .FIRST | .keyword .NEXT => pure ()
  | found => fault (.expected "FIRST or NEXT" found)
  let count ←
    match ← peek with
    | some (.keyword .ROW) | some (.keyword .ROWS) => pure (.literal (.integer 1))
    | _ => g.expression 0
  match ← next with
  | .keyword .ROW | .keyword .ROWS => pure ()
  | found => fault (.expected "ROW or ROWS" found)
  expect Keyword.ONLY
  pure count

/-- Reads the rest of `LIMIT n [OFFSET m]` or `LIMIT m, n`. -/
def limitPaging (g : Grammar) : Parser Paging := do
  require (·.dialect.limitOffset) .limit
  let first ← g.expression 0
  if ← accept Sign.comma then pure { offset := first, limit := ← g.expression 0 }
  else pure { offset := ← clause? .OFFSET (g.expression 0), limit := first }

/-- Reads the rest of `OFFSET m ROWS [FETCH ...]` or of `OFFSET m [LIMIT
n]`, for a query that is ordered or not. -/
def offsetPaging (g : Grammar) (ordered : Bool) : Parser Paging := do
  let offset ← g.expression 0
  let row ← accept Keyword.ROW
  let rows ← if row then pure true else accept Keyword.ROWS
  if rows then
    require (·.supportsPaging) .paging
    let limit ← clause? .FETCH (fetchCount g)
    if (← read).version.dialect.pagingRequiresOrderBy && !ordered then
      throw (.invalid .pagingWithoutOrder)
    pure { offset, limit }
  else
    require (·.dialect.limitOffset) .bareOffset
    pure { offset, limit := ← clause? .LIMIT (g.expression 0) }

def fetchPaging (g : Grammar) : Parser Paging := do
  require (·.supportsFetchFirst) .fetchFirst
  pure { limit := ← fetchCount g }

def paging? (g : Grammar) (ordered : Bool) : Parser (Option Paging) := do
  let word? ← nextMap? fun
    | .keyword .LIMIT => some (limitPaging g)
    | .keyword .OFFSET => some (offsetPaging g ordered)
    | .keyword .FETCH => some (fetchPaging g)
    | _ => none
  match word? with
  | some paging => some <$> paging
  | none => pure none

-- ================================================================ WITH

/-- Reads MATERIALIZED or NOT MATERIALIZED, if it is there. -/
def materializedHint? : Parser (Option Bool) := do
  if ← accept Keyword.MATERIALIZED then pure (some true)
  else if ← accept Keyword.NOT then
    expect Keyword.MATERIALIZED
    pure (some false)
  else pure none

/-- Reads whether the result is to be materialized, if the query says
so. -/
def materialization? : Parser (Option Bool) := do
  let hint? ← materializedHint?
  if hint?.isSome then require (·.dialect.materializedHint) .materialized
  pure hint?

/-- Reads a named query. It cannot have named queries of its own. -/
def cte (g : Grammar) (recursive : Bool) : Parser Cte := do
  let name ← identifier
  let columns ←
    if (← peek) = some (Token.sign .openParen) then identifierList else pure []
  expect Keyword.AS
  let materialized ← materialization?
  let body ← parenthesized do
    let body ← g.select
    if body.ctes.isEmpty then pure body else fault (.nestedWith name)
  pure ⟨name, columns, recursive, materialized, body⟩

def withClause (g : Grammar) : Parser (List Cte) := do
  let ctes? ← clause? .WITH do
    require (·.supportsCte) .withClause
    let recursive ← accept Keyword.RECURSIVE
    if recursive then require (·.supportsRecursiveCte) .withRecursive
    commaList (cte g recursive)
  pure (ctes?.getD [])

-- ============================================================= queries

/-- Reads the queries that UNION appends. -/
def unions (g : Grammar) : Parser (List UnionBranch) :=
  iterate (fun branches => do
    if ← accept Keyword.UNION then
      let all ← accept Keyword.ALL
      pure (some (branches ++ [⟨all, ← core g⟩]))
    else pure none) []

/-- Reads a query. A row limit after SELECT and one at the end exclude
each other. -/
def selectWith (g : Grammar) : Parser Select := do
  let ctes ← withClause g
  let first ← core g
  let unions ← unions g
  let orderBy ← orderByClause g
  let query := { first with ctes, unions, orderBy }
  let query ←
    match ← paging? g !orderBy.isEmpty with
    | none => pure query
    | some paging =>
      if first.limit.isSome then throw (.invalid .topWithPaging)
      else pure { query with offset := paging.offset, limit := paging.limit }
  pure { query with queryHints := ← queryHints }

-- =============================================================== depth

/-- The grammar of expressions and queries that are nested less deep
than a given number. Beyond it there is nothing but the end. -/
def ofDepth : Nat → Grammar
  | 0 => { expression := fun _ => ending, select := ending }
  | depth + 1 =>
    let inner := ofDepth depth
    { expression := expressionWith inner, select := selectWith inner }

end DialectDb.Grammar
