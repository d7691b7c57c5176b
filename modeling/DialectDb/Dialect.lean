/-
SQL dialects and their versions: which constructs a statement may use.
A dialect is data, never code. What depends on its version is given as
the least version that has the construct, so a later version of a
dialect accepts whatever an earlier one does.
-/
import DialectDb.Text

namespace DialectDb

-- ============================================================ dialects

/-- How a dialect spells hints on tables, if at all. -/
inductive HintStyle
  | none
  /-- `WITH (NOLOCK, INDEX(...))`, `(NOLOCK)`, and `OPTION (...)`. -/
  | table
  /-- `USE|IGNORE|FORCE INDEX|KEY [FOR ...] (...)`. -/
  | index
deriving DecidableEq

/-- The rules by which a text is cut into tokens. -/
structure LexicalRules where
  /-- Identifiers may stand between backticks. -/
  backtickIdentifiers : Bool
  /-- Identifiers may stand between square brackets. -/
  bracketIdentifiers : Bool
  /-- Double quotes delimit strings rather than identifiers. -/
  doubleQuoteStrings : Bool
  /-- A backslash in a string escapes the character after it. -/
  backslashEscapes : Bool
  /-- A hash sign starts a comment that ends with the line. -/
  hashComments : Bool
deriving DecidableEq

structure Dialect where
  /-- The name, in lower case. -/
  name : String
  /-- The known versions, ascending. -/
  versions : List Nat
  /-- The first version with `OFFSET n ROWS FETCH NEXT m ROWS ONLY`. -/
  pagingSince : Option Nat
  /-- Whether that paging needs an ORDER BY clause. -/
  pagingRequiresOrderBy : Bool
  /-- The first version with `FETCH FIRST n ROWS ONLY` on its own. -/
  fetchFirstSince : Option Nat
  /-- Whether there is `LIMIT n [OFFSET m]`. -/
  limitOffset : Bool
  /-- Whether there is `SELECT TOP n`. -/
  top : Bool
  /-- The first version with `WITH`. -/
  cteSince : Option Nat
  /-- The first version with `WITH RECURSIVE`. -/
  recursiveCteSince : Option Nat
  /-- Whether there is `AS [NOT] MATERIALIZED`. -/
  materializedHint : Bool
  hints : HintStyle
  /-- Whether there is `ON CONFLICT ... DO UPDATE | DO NOTHING`. -/
  onConflict : Bool
  /-- Whether there is `ON DUPLICATE KEY UPDATE`. -/
  onDuplicateKeyUpdate : Bool
  /-- Whether `DELETE` can leave out `FROM`. -/
  deleteWithoutFrom : Bool
  /-- The first version with `MERGE`. -/
  mergeSince : Option Nat
  lexical : LexicalRules
  /-- The sign before named parameters. -/
  parameterSign : Char
  /-- Whether the sign is written in statements. -/
  signInText : Bool
  /-- Whether the sign is part of parameter names. -/
  signInName : Bool
deriving DecidableEq

namespace Dialect

def latestVersion (d : Dialect) : Nat :=
  d.versions.getLast?.getD 0

/-- A name, with the dialect's sign before it if it is to be there. -/
def signed (d : Dialect) (withSign : Bool) (name : String) : String :=
  if withSign then .ofList (d.parameterSign :: name.toList) else name

/-- How a named parameter is written in a statement. -/
def placeholder (d : Dialect) (name : String) : String := d.signed d.signInText name

/-- How a parameter is named outside of statements. -/
def parameterName (d : Dialect) (name : String) : String := d.signed d.signInName name

end Dialect

-- ============================================================ versions

/-- A dialect at one of its versions. Every statement is read and run
under one of these. -/
structure DialectVersion where
  dialect : Dialect
  version : Nat
deriving DecidableEq

namespace DialectVersion

def text (v : DialectVersion) : String :=
  v.dialect.name ++ " " ++ toString v.version

/-- Whether the version has what exists since a given one, if ever. -/
def reaches (v : DialectVersion) (since : Option Nat) : Bool :=
  since.any (· ≤ v.version)

/-- `OFFSET n ROWS [FETCH NEXT m ROWS ONLY]`. -/
def supportsPaging (v : DialectVersion) : Bool := v.reaches v.dialect.pagingSince

def supportsFetchFirst (v : DialectVersion) : Bool := v.reaches v.dialect.fetchFirstSince

def supportsCte (v : DialectVersion) : Bool := v.reaches v.dialect.cteSince

def supportsRecursiveCte (v : DialectVersion) : Bool := v.reaches v.dialect.recursiveCteSince

def supportsMerge (v : DialectVersion) : Bool := v.reaches v.dialect.mergeSince

end DialectVersion

-- ============================================================= filters

/-- A choice among a dialect's versions: those that satisfy every bound
that is set. -/
structure VersionFilter where
  specific : Option (List Nat) := none
  atLeast : Option Nat := none
  atMost : Option Nat := none
  below : Option Nat := none
deriving DecidableEq

namespace VersionFilter

/-- Whether a version satisfies every bound that is set. -/
def accepts (f : VersionFilter) (version : Nat) : Bool :=
  f.specific.all (·.contains version) && f.atLeast.all (· ≤ version)
    && f.atMost.all (version ≤ ·) && f.below.all (version < ·)

def summary (f : VersionFilter) : String :=
  let bound (b : Option String) : String :=
    match b with
    | some text => "Some(" ++ text ++ ")"
    | none => "None"
  "VersionFilter \x7b specific: "
    ++ bound (f.specific.map fun vs => Text.bracketed (vs.map toString))
    ++ ", at_least: " ++ bound (f.atLeast.map toString)
    ++ ", at_most: " ++ bound (f.atMost.map toString)
    ++ ", below: " ++ bound (f.below.map toString) ++ " \x7d"

end VersionFilter

end DialectDb
