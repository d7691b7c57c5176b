/-
Why a statement or a call fails. Each failure is a cause with the data
that belongs to it; the wording is in `message` alone. Causes are
grouped as callers tell them apart: a text that is no statement, a
construct that the dialect version lacks, a name that is unknown or
ambiguous, values of the wrong type, a violated constraint, and so on.
-/
import DialectDb.Value
import DialectDb.Operator
import DialectDb.Token
import DialectDb.Parameter
import DialectDb.Effect
import DialectDb.Dialect

namespace DialectDb

-- ====================================================== malformed texts

/-- Why a text is not a statement. -/
inductive Malformed
  | unexpectedCharacter (c : Char)
  | unterminatedComment
  | unterminatedIdentifier
  | unterminatedString
  | emptyIdentifier
  | unexpectedEnd
  | unexpected (found : Token)
  | unexpectedKeyword (found : Keyword)
  | expectedToken (wanted found : Token)
  | expected (wanted : String) (found : Token)
  | expectedOperand (found : Token)
  | integerTooLarge (digits : String)
  | badNumber (text : String)
  | misplacedStar
  | unknownType (name : String)
  | unknownPrimaryKey (column : String)
  | unknownUnique (column : String)
  | nullabilityTwice (column : String)
  | assignedTwice (column : String)
  | nestedWith (cte : String)
  | missingWhen
  | emptyQueryHint
deriving DecidableEq

def Malformed.message : Malformed → String
  | unexpectedCharacter c => s!"unexpected character {c}"
  | unterminatedComment => "unterminated comment"
  | unterminatedIdentifier => "unterminated quoted identifier"
  | unterminatedString => "unterminated string literal"
  | emptyIdentifier => "empty quoted identifier"
  | unexpectedEnd => "unexpected end of input"
  | unexpected found => s!"unexpected token {found.text}"
  | unexpectedKeyword found => s!"unexpected keyword {found.text}"
  | expectedToken wanted found => s!"expected token {wanted.text}, found {found.text}"
  | expected wanted found => s!"expected {wanted}, got {found.text}"
  | expectedOperand found => s!"expected expression atom, found {found.text}"
  | integerTooLarge digits => s!"invalid integer {digits}"
  | badNumber text => s!"invalid number {text}"
  | misplacedStar => "* is only valid in COUNT(*)"
  | unknownType name => s!"unknown datatype {name}"
  | unknownPrimaryKey column => s!"unknown primary key column {column}"
  | unknownUnique column => s!"unknown unique column {column}"
  | nullabilityTwice column => s!"nullability already set for {column}"
  | assignedTwice column => s!"column {column} set multiple times"
  | nestedWith cte => s!"nested WITH clause in CTE {cte}"
  | missingWhen => "MERGE requires a WHEN clause"
  | emptyQueryHint => "empty query hint"

-- ============================================================ features

/-- A construct that a dialect version may lack. -/
inductive Feature
  | deleteWithoutFrom
  | onConflict
  | onDuplicateKeyUpdate
  | merge
  | withClause
  | withRecursive
  | materialized
  | top
  | withTableHints
  | tableHints
  | indexHints
  | queryHints
  | limit
  | paging
  | bareOffset
  | fetchFirst
  | recursiveEvaluation (cte : String)
deriving DecidableEq

def Feature.text : Feature → String
  | deleteWithoutFrom => "DELETE without FROM"
  | onConflict => "ON CONFLICT"
  | onDuplicateKeyUpdate => "ON DUPLICATE KEY UPDATE"
  | merge => "MERGE"
  | withClause => "WITH common table expressions"
  | withRecursive => "WITH RECURSIVE"
  | materialized => "MATERIALIZED hint"
  | top => "SELECT TOP"
  | withTableHints => "WITH table hints"
  | tableHints => "table hints"
  | indexHints => "index hints"
  | queryHints => "OPTION query hints"
  | limit => "LIMIT"
  | paging => "OFFSET/FETCH paging"
  | bareOffset => "OFFSET without ROWS"
  | fetchFirst => "FETCH FIRST"
  | recursiveEvaluation cte => s!"evaluation of recursive CTE {cte}"

-- ================================================== invalid operations

/-- A clause that counts rows. -/
inductive CountClause
  | offset
  | limit
deriving DecidableEq

def CountClause.text : CountClause → String
  | offset => "OFFSET"
  | limit => "LIMIT"

/-- What is wrong with a command of the shell. -/
inductive CommandFault
  | missing
  | unknown (command : String)
  | takesNone (command : String)
  | takesOne (command : String)
  | noTable (name : String)
deriving DecidableEq

def CommandFault.message : CommandFault → String
  | missing => "expected command"
  | unknown command => s!"unknown command {command}"
  | takesNone command => s!"{command} takes no arguments"
  | takesOne command => s!"{command} takes 1 argument"
  | noTable name => s!"table {name} does not exist"

/-- Why an operation is not valid where it stands or on what it is
given. -/
inductive InvalidOperation
  | integerOverflow
  | divisionByZero
  | columnOutOfBounds (index : Nat)
  | unknownFunction (name : String)
  | argumentCount (function : String) (expected given : Nat)
  | missingArgument (function : String)
  | starNotValid
  | starInGrouping
  | subqueryNotValid
  | aggregateNotValid (name : String)
  | aggregateArgumentCount (name : String) (given : Nat)
  | nestedWith
  | orderPosition (ordinal : Int)
  | rowCount (clause : CountClause) (given : Value)
  | subqueryWidth (columns : Nat)
  | patternSize (limit : Nat)
  | pagingWithoutOrder
  | topWithPaging
  | mergeMatchedTwice
  | insertForMatched
  | insertOnlyForUnmatched
  | notAQuery (effect : Effect)
  | command (fault : CommandFault)
deriving DecidableEq

def InvalidOperation.message : InvalidOperation → String
  | integerOverflow => "integer overflow"
  | divisionByZero => "can't divide by zero"
  | columnOutOfBounds index => s!"column index {index} out of bounds"
  | unknownFunction name => s!"unknown function {name}"
  | argumentCount function expected given =>
    s!"function {function} takes {expected} arguments, got {given}"
  | missingArgument function => s!"function {function} takes at least 1 argument"
  | starNotValid => "* is not valid here"
  | starInGrouping => "* is not valid with GROUP BY or aggregates"
  | subqueryNotValid => "subqueries are only supported in WHERE clauses"
  | aggregateNotValid name => s!"aggregate function {name} is not valid here"
  | aggregateArgumentCount name given =>
    s!"aggregate function {name} takes 1 argument, got {given}"
  | nestedWith => "nested WITH clauses are not supported"
  | orderPosition ordinal => s!"ORDER BY position Literal(Integer({ordinal})) is out of range"
  | rowCount clause given =>
    s!"invalid {clause.text} value {given.text}, expected a non-negative integer"
  | subqueryWidth columns => s!"IN subquery returned {columns} columns, expected 1"
  | patternSize limit => s!"Compiled regex exceeds size limit of {limit} bytes."
  | pagingWithoutOrder => "OFFSET/FETCH paging requires ORDER BY"
  | topWithPaging => "TOP can't be combined with other row limits"
  | mergeMatchedTwice => "MERGE matched a target row with more than one source row"
  | insertForMatched => "INSERT is not valid for matched rows"
  | insertOnlyForUnmatched => "only INSERT is valid for unmatched rows"
  | notAQuery effect => s!"expected a query, got {effect.summary}"
  | command fault => fault.message

-- ======================================================= schema faults

/-- What is wrong with the name or the shape of a table, a column or a
result. -/
inductive SchemaFault
  | noTable (name : String)
  | tableExists (name : String)
  | unnamedTable
  | noColumns (table : String)
  | unnamedColumn (table : String)
  | duplicateColumn (column table : String)
  | nullableKey (column : String)
  | nullDefault (column : String)
  | noTableColumn (column table : String)
  | rowWidth (values : Nat) (table : String) (columns : Nat)
  | duplicateTable (name : String)
  | unknownColumn (reference : String)
  | ambiguousColumn (reference : String)
  | cteWidth (cte : String) (columns names : Nat)
  | unionWidth
  | unionOrder
  | valueCount
  | columnTwice (name : String)
deriving DecidableEq

def SchemaFault.message : SchemaFault → String
  | noTable name => s!"table {name} does not exist"
  | tableExists name => s!"table {name} already exists"
  | unnamedTable => "table name can't be empty"
  | noColumns table => s!"table {table} has no columns"
  | unnamedColumn table => s!"table {table} has a column without a name"
  | duplicateColumn column table => s!"duplicate column {column} in table {table}"
  | nullableKey column => s!"primary key column {column} can't be nullable"
  | nullDefault column => s!"invalid NULL default for NOT NULL column {column}"
  | noTableColumn column table => s!"unknown column {column} in table {table}"
  | rowWidth values table columns =>
    s!"row has {values} values, table {table} has {columns} columns"
  | duplicateTable name => s!"duplicate table name {name}"
  | unknownColumn reference => s!"unknown column {reference}"
  | ambiguousColumn reference => s!"ambiguous column {reference}"
  | cteWidth cte columns names =>
    s!"CTE {cte} has {columns} columns, but {names} column names were given"
  | unionWidth => "UNION branches have different column counts"
  | unionOrder => "ORDER BY of a UNION must use a result column"
  | valueCount => "column and value counts do not match"
  | columnTwice name => s!"column {name} given multiple times"

-- ===================================================== type mismatches

/-- Which values do not fit together, or do not fit where they go. -/
inductive TypeMismatch
  | compare (left right : Value)
  | compareText (text : String) (number : Value)
  | operands (op : BinaryOp) (left right : Value)
  | operand (op : UnaryOp) (value : Value)
  | concatenateBoolean
  | argument (function : Function) (value : Value)
  | store (value : Value) (type : DataType)
  | cast (type : DataType) (value : Value)
  | filter (value : Value)
  | joinPredicate (value : Value)
deriving DecidableEq

def TypeMismatch.message : TypeMismatch → String
  | compare left right => s!"can't compare {left.text} and {right.text}"
  | compareText text number => s!"can't compare '{text}' and {number.text}"
  | operands op left right => s!"can't {op.verb} {left.text} and {right.text}"
  | operand op value => s!"can't {op.verb} {value.text}"
  | concatenateBoolean => "can't concatenate booleans"
  | argument function value => s!"can't take {function.text} of {value.text}"
  | store value type => s!"can't store {value.text} in {type.text} column"
  | cast type value => s!"not {Text.lower type.text}: {value.text}"
  | filter value => s!"filter returned {value.text}, expected boolean"
  | joinPredicate value => s!"join predicate returned {value.text}, expected boolean"

-- ================================================ constraints and others

/-- Which constraint a row violates. -/
inductive ConstraintViolation
  | nullValue (column : String)
  | duplicateKey (values : List Value) (table : String)
  | noDefault (column : String)
deriving DecidableEq

def ConstraintViolation.message : ConstraintViolation → String
  | nullValue column => s!"NULL value not allowed for column {column}"
  | duplicateKey values table =>
    let key := ", ".intercalate (values.map Value.text)
    s!"duplicate key ({key}) in table {table}"
  | noDefault column => s!"no value given for column {column} with no default"

/-- Which placeholder is left without a value. -/
inductive BindingFault
  | noParameter (placeholder : Placeholder)
  | notBound (placeholder : Placeholder)
deriving DecidableEq

def BindingFault.message : BindingFault → String
  | noParameter placeholder =>
    s!"no input parameter given for placeholder {placeholder.text}"
  | notBound placeholder => s!"parameter {placeholder.text} is not bound"

/-- What the catalog of dialects does not have. -/
inductive ConfigurationFault
  | unknownDialect (name : String)
  | unknownVersion (dialect : String) (version : Nat) (known : List Nat)
  | noVersions (dialect : String) (filter : VersionFilter)
deriving DecidableEq

def ConfigurationFault.message : ConfigurationFault → String
  | unknownDialect name => s!"unknown dialect {name}"
  | unknownVersion dialect version known =>
    let versions := Text.bracketed (known.map toString)
    s!"{dialect} has no version {version}, expected one of {versions}"
  | noVersions dialect filter => s!"no {dialect} versions match {filter.summary}"

/-- What the state of a connection does not allow. -/
inductive ConnectionFault
  | alreadyOpen
  | cannotReopen
  | notOpen
  | alreadyClosed
deriving DecidableEq

def ConnectionFault.message : ConnectionFault → String
  | alreadyOpen => "connection is already open"
  | cannotReopen => "connection was closed and can't be reopened"
  | notOpen => "connection is not open"
  | alreadyClosed => "connection is already closed"

-- ============================================================== errors

/-- A failure. The position of a malformed text counts bytes of UTF-8. -/
inductive Error
  | malformed (position : Nat) (fault : Malformed)
  | unsupported (dialect : DialectVersion) (feature : Feature)
  | invalid (cause : InvalidOperation)
  | schema (fault : SchemaFault)
  | typeMismatch (mismatch : TypeMismatch)
  | constraint (violation : ConstraintViolation)
  | binding (fault : BindingFault)
  | unregistered (dialect : String)
  | configuration (fault : ConfigurationFault)
  | connection (fault : ConnectionFault)
deriving DecidableEq

/-- The text of a failure. -/
def Error.message : Error → String
  | malformed position fault => s!"syntax error at position {position}: {fault.message}"
  | unsupported v feature =>
    s!"{feature.text} is not supported by {v.dialect.name} version {v.version}"
  | invalid cause => s!"invalid operation: {cause.message}"
  | schema fault => s!"schema error: {fault.message}"
  | typeMismatch mismatch => s!"type mismatch: {mismatch.message}"
  | constraint violation => s!"constraint violation: {violation.message}"
  | binding fault => s!"parameter binding error: {fault.message}"
  | unregistered dialect => s!"no executor registered for dialect {dialect}"
  | configuration fault => s!"configuration error: {fault.message}"
  | connection fault => s!"invalid connection state: {fault.message}"

/-- The result of what can fail. -/
abbrev Result := Except Error

end DialectDb
