/-
The grammar of statements, and the reading of a text as one. The whole
text has to be a single statement, with a semicolon after it or not.
-/
import DialectDb.Statement
import DialectDb.Grammar.Query

namespace DialectDb.Grammar

open DialectDb.Parser

-- ============================================================== tables

/-- Marks a column as part of a key that a table constraint names; none
if there is no such column. -/
def markColumn? (mark : ColumnDefinition → ColumnDefinition) (key : String) :
    List ColumnDefinition → Option (List ColumnDefinition)
  | [] => none
  | column :: rest =>
    if Text.sameName column.name key then some (mark column :: rest)
    else (column :: ·) <$> markColumn? mark key rest

/-- Reads the columns of a table constraint and marks them. -/
def tableConstraint (mark : ColumnDefinition → ColumnDefinition)
    (unknown : String → Malformed) (columns : List ColumnDefinition) :
    Parser (List ColumnDefinition) := do
  let keys ← identifierList
  keys.foldlM (fun columns key =>
    match markColumn? mark key columns with
    | some columns => pure columns
    | none => fault (unknown key)) columns

/-- Reads the arguments of a type, if there are any. They are numbers,
and mean nothing. -/
def typeArguments : Parser Unit := do
  if ← accept Sign.openParen then
    let _ ← commaList do
      match ← next with
      | .number _ => pure ()
      | found => fault (.unexpected found)
    expect Sign.closeParen

/-- Gives a column NULL or NOT NULL, which it can get only once. -/
def setNullable (column : ColumnDefinition) (nullable : Bool) : Parser ColumnDefinition :=
  if column.nullable.isSome then fault (.nullabilityTwice column.name)
  else pure { column with nullable }

/-- Reads a constraint of a column, if there is one, and puts it on the
column. -/
def columnConstraint? (g : Grammar) (column : ColumnDefinition) :
    Parser (Option ColumnDefinition) := do
  let word? ← nextMap? fun
    | .keyword word => some word
    | _ => none
  match word? with
  | none => pure none
  | some .PRIMARY =>
    expect Keyword.KEY
    pure (some { column with primaryKey := true })
  | some .NULL => some <$> setNullable column true
  | some .NOT =>
    expect Keyword.NULL
    some <$> setNullable column false
  | some .DEFAULT => pure (some { column with default := ← g.expression 0 })
  | some .UNIQUE => pure (some { column with unique := true })
  | some word => fault (.unexpectedKeyword word)

def columnDefinition (g : Grammar) : Parser ColumnDefinition := do
  let name ← identifier
  let typeName ← identifier
  match DataType.ofName? typeName with
  | none => fault (.unknownType typeName)
  | some type =>
    typeArguments
    iterate (columnConstraint? g) { name, type }

/-- Reads a column or a table constraint, after the columns before
it. -/
def tableElement (g : Grammar) (columns : List ColumnDefinition) :
    Parser (List ColumnDefinition) := do
  match ← peek with
  | some (.keyword .PRIMARY) =>
    let _ ← next
    expect Keyword.KEY
    tableConstraint ({ · with primaryKey := true }) .unknownPrimaryKey columns
  | some (.keyword .UNIQUE) =>
    let _ ← next
    tableConstraint ({ · with unique := true }) .unknownUnique columns
  | _ => pure (columns ++ [← columnDefinition g])

def createTable (g : Grammar) : Parser Statement := do
  expect Keyword.CREATE
  expect Keyword.TABLE
  let name ← tableName
  let columns ← parenthesized (commaFold (tableElement g) [])
  pure (.createTable name columns)

def dropTable : Parser Statement := do
  expect Keyword.DROP
  expect Keyword.TABLE
  let ifExists ← accept Keyword.IF
  if ifExists then expect Keyword.EXISTS
  pure (.dropTable (← tableName) ifExists)

-- ================================================================ rows

def delete (g : Grammar) : Parser Statement := do
  expect Keyword.DELETE
  if !(← accept Keyword.FROM) then require (·.dialect.deleteWithoutFrom) .deleteWithoutFrom
  let table ← tableName
  pure (.delete ⟨table, ← whereClause g⟩)

def valueRow (g : Grammar) : Parser (List Expr) :=
  parenthesized (commaList (g.expression 0))

/-- Reads a list of columns, if there is one. -/
def columnList? : Parser (Option (List String)) := do
  if (← peek) = some (Token.sign .openParen) then some <$> identifierList else pure none

/-- Puts an assignment into a list in the order of the column names;
none if the column is assigned already. -/
def insertAssignment? (new : Assignment) : List Assignment → Option (List Assignment)
  | [] => some [new]
  | a :: rest =>
    if new.column = a.column then none
    else if new.column < a.column then some (new :: a :: rest)
    else (a :: ·) <$> insertAssignment? new rest

/-- Reads the assignments after SET. A table before the column is
dropped. -/
def assignments (g : Grammar) : Parser (List Assignment) :=
  commaFold (fun assigned => do
    let first ← identifier
    let column ← if ← accept Sign.period then identifier else pure first
    expect Sign.equal
    let value ← g.expression 0
    match insertAssignment? ⟨column, value⟩ assigned with
    | some assigned => pure assigned
    | none => fault (.assignedTwice column)) []

/-- Puts an upsert assignment into a list. A column that is assigned
again keeps its place and takes the later value. -/
def replaceAssignment (new : Assignment) : List Assignment → List Assignment
  | [] => [new]
  | a :: rest =>
    if Text.sameName a.column new.column then ⟨a.column, new.value⟩ :: rest
    else a :: replaceAssignment new rest

/-- Reads upsert assignments, in which the row that was to be inserted
can be referred to. -/
def upsertAssignments (g : Grammar) : Parser (List Assignment) :=
  withReader ({ · with upsert := true }) <|
    commaFold (fun assigned => do
      let column ← identifier
      expect Sign.equal
      let value ← g.expression 0
      pure (replaceAssignment ⟨column, value⟩ assigned)) []

/-- Reads what to do with rows that conflict, if INSERT says so. -/
def conflictClause (g : Grammar) (insert : Insert) : Parser Insert := do
  if !(← accept Keyword.ON) then pure insert
  else
    match ← next with
    | .keyword .CONFLICT =>
      require (·.dialect.onConflict) .onConflict
      let target? ← columnList?
      expect Keyword.DO
      let insert := { insert with conflictTarget := target?.getD [] }
      if ← accept Keyword.NOTHING then pure { insert with ignoreConflicts := true }
      else
        expect Keyword.UPDATE
        expect Keyword.SET
        pure { insert with assignments := ← upsertAssignments g }
    | .keyword .DUPLICATE =>
      require (·.dialect.onDuplicateKeyUpdate) .onDuplicateKeyUpdate
      expect Keyword.KEY
      expect Keyword.UPDATE
      pure { insert with assignments := ← upsertAssignments g }
    | found => fault (.unexpected found)

def insert (g : Grammar) : Parser Statement := do
  expect Keyword.INSERT
  expect Keyword.INTO
  let table ← tableName
  let columns ← columnList?
  let insert : Insert ←
    if ← atQuery then
      let query ← g.select
      pure { table, columns, rows := [], query }
    else
      expect Keyword.VALUES
      pure { table, columns, rows := ← commaList (valueRow g), query := none }
  .insert <$> conflictClause g insert

def update (g : Grammar) : Parser Statement := do
  expect Keyword.UPDATE
  let table ← tableName
  expect Keyword.SET
  let assigned ← assignments g
  pure (.update ⟨table, assigned, ← whereClause g⟩)

-- =============================================================== MERGE

/-- Reads where MERGE takes its rows from. -/
def mergeSource (g : Grammar) : Parser MergeSource := do
  if ← accept Sign.openParen then
    let query ← g.select
    expect Sign.closeParen
    skipOver Keyword.AS
    pure (.query query (← identifier))
  else .table <$> tableRef

/-- Reads what a clause does: matched rows are updated or deleted, and
source rows without a match are inserted. -/
def mergeAction (g : Grammar) (matched : Bool) : Parser MergeAction := do
  match matched, ← next with
  | true, .keyword .UPDATE =>
    expect Keyword.SET
    .update <$> assignments g
  | true, .keyword .DELETE => pure .delete
  | false, .keyword .INSERT =>
    let columns ← columnList?
    expect Keyword.VALUES
    pure (.insert columns (← valueRow g))
  | true, found => fault (.expected "UPDATE or DELETE" found)
  | false, found => fault (.expected "INSERT" found)

/-- Reads a clause of MERGE, after WHEN. -/
def mergeClause (g : Grammar) : Parser MergeClause := do
  let matched := !(← accept Keyword.NOT)
  expect Keyword.MATCHED
  let byTarget ← if matched then pure false else accept Keyword.BY
  if byTarget then
    let name ← identifier
    if !Text.sameName name "target" then fault (.expected "TARGET" (.ident name))
  let condition ← clause? .AND (g.expression 0)
  expect Keyword.THEN
  pure ⟨matched, condition, ← mergeAction g matched⟩

def merge (g : Grammar) : Parser Statement := do
  expect Keyword.MERGE
  require (·.supportsMerge) .merge
  skipOver Keyword.INTO
  let target ← tableRef
  expect Keyword.USING
  let source ← mergeSource g
  expect Keyword.ON
  let predicate ← g.expression 0
  let clauses ← iterate (fun clauses => do
    if ← accept Keyword.WHEN then pure (some (clauses ++ [← mergeClause g]))
    else pure none) []
  if clauses.isEmpty then throw (.malformed (← peekPosition) .missingWhen)
  pure (.merge ⟨target, source, predicate, clauses⟩)

-- ========================================================== statements

def statement (g : Grammar) : Parser Statement := do
  let position ← peekPosition
  match ← peek with
  | none => ending
  | some (.keyword .CREATE) => createTable g
  | some (.keyword .DROP) => dropTable
  | some (.keyword .DELETE) => delete g
  | some (.keyword .INSERT) => insert g
  | some (.keyword .SELECT) | some (.keyword .WITH) => .select <$> g.select
  | some (.keyword .UPDATE) => update g
  | some (.keyword .MERGE) => merge g
  | some found => throw (.malformed position (.unexpected found))

/-- Reads a statement up to the end of the text. -/
def wholeStatement (g : Grammar) : Parser Statement := do
  let s ← statement g
  skipOver Sign.semicolon
  match ← peek with
  | none => pure s
  | some found => throw (.malformed (← peekPosition) (.unexpected found))

end DialectDb.Grammar

namespace DialectDb.Statement

/-- Reads tokens with a parser. Every level of nesting takes a token, so
the number of tokens bounds the depth. -/
def readTokens {α : Type} (parser : Grammar → Parser α) (version : DialectVersion) (size : Nat)
    (tokens : Lexer.Lexed) : Result α := do
  let grammar := Grammar.ofDepth (tokens.lexemes.length + 1)
  let (a, _) ← (parser grammar).run { version, failure := tokens.failure, size }
    |>.run { lexemes := tokens.lexemes }
  pure a

/-- The statement that a text is under a dialect version. -/
def parse (version : DialectVersion) (text : String) : Result Statement :=
  readTokens Grammar.wholeStatement version text.utf8ByteSize
    (Lexer.lex version.dialect.lexical text)

end DialectDb.Statement
