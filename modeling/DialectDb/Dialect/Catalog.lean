/-
The catalog: the dialects there are, each with its versions and the
constructs it has, and how a dialect and a version are found by name and
number.
-/
import DialectDb.Error

namespace DialectDb

namespace Dialect

-- ============================================================= entries

def db2 : Dialect where
  name := "db2"
  versions := [8, 9, 10, 11]
  pagingSince := none
  pagingRequiresOrderBy := false
  fetchFirstSince := some 8
  limitOffset := true
  top := false
  cteSince := some 8
  recursiveCteSince := some 8
  materializedHint := false
  hints := .none
  onConflict := false
  onDuplicateKeyUpdate := false
  deleteWithoutFrom := false
  mergeSince := some 9
  lexical :=
    { backtickIdentifiers := false
      bracketIdentifiers := false
      doubleQuoteStrings := false
      backslashEscapes := false
      hashComments := false }
  parameterSign := '@'
  signInText := true
  signInName := true

def mySql : Dialect where
  name := "mysql"
  versions := [3, 4, 5, 8]
  pagingSince := some 3
  pagingRequiresOrderBy := false
  fetchFirstSince := none
  limitOffset := true
  top := false
  cteSince := some 8
  recursiveCteSince := some 8
  materializedHint := false
  hints := .index
  onConflict := false
  onDuplicateKeyUpdate := true
  deleteWithoutFrom := true
  mergeSince := none
  lexical :=
    { backtickIdentifiers := true
      bracketIdentifiers := false
      doubleQuoteStrings := true
      backslashEscapes := true
      hashComments := true }
  parameterSign := '@'
  signInText := true
  signInName := true

def postgreSql : Dialect where
  name := "postgresql"
  versions := [6, 7, 8, 9, 10, 11, 12, 13, 14, 15, 16, 17]
  pagingSince := some 6
  pagingRequiresOrderBy := false
  fetchFirstSince := some 6
  limitOffset := true
  top := false
  cteSince := some 6
  recursiveCteSince := some 6
  materializedHint := true
  hints := .none
  onConflict := true
  onDuplicateKeyUpdate := false
  deleteWithoutFrom := false
  mergeSince := some 15
  lexical :=
    { backtickIdentifiers := false
      bracketIdentifiers := false
      doubleQuoteStrings := false
      backslashEscapes := false
      hashComments := false }
  parameterSign := '@'
  signInText := true
  signInName := true

def oracle : Dialect where
  name := "oracle"
  versions := [7, 8, 9, 10, 11, 12, 18, 19, 21, 23]
  pagingSince := some 12
  pagingRequiresOrderBy := false
  fetchFirstSince := some 12
  limitOffset := false
  top := true
  cteSince := some 9
  recursiveCteSince := none
  materializedHint := false
  hints := .none
  onConflict := false
  onDuplicateKeyUpdate := false
  deleteWithoutFrom := false
  mergeSince := some 9
  lexical :=
    { backtickIdentifiers := false
      bracketIdentifiers := true
      doubleQuoteStrings := false
      backslashEscapes := false
      hashComments := false }
  parameterSign := '@'
  signInText := true
  signInName := true

def sqlServer : Dialect where
  name := "sqlserver"
  versions := [2000, 2005, 2008, 2012, 2014, 2016, 2017, 2019, 2022]
  pagingSince := some 2012
  pagingRequiresOrderBy := true
  fetchFirstSince := none
  limitOffset := false
  top := true
  cteSince := some 2005
  recursiveCteSince := none
  materializedHint := false
  hints := .table
  onConflict := false
  onDuplicateKeyUpdate := false
  deleteWithoutFrom := true
  mergeSince := some 2008
  lexical :=
    { backtickIdentifiers := false
      bracketIdentifiers := true
      doubleQuoteStrings := false
      backslashEscapes := false
      hashComments := false }
  parameterSign := '@'
  signInText := true
  signInName := true

def sqLite : Dialect where
  name := "sqlite"
  versions := [3]
  pagingSince := some 3
  pagingRequiresOrderBy := false
  fetchFirstSince := none
  limitOffset := true
  top := false
  cteSince := some 3
  recursiveCteSince := some 3
  materializedHint := true
  hints := .none
  onConflict := true
  onDuplicateKeyUpdate := true
  deleteWithoutFrom := false
  mergeSince := none
  lexical :=
    { backtickIdentifiers := true
      bracketIdentifiers := false
      doubleQuoteStrings := true
      backslashEscapes := false
      hashComments := false }
  parameterSign := '@'
  signInText := true
  signInName := true

def all : List Dialect := [db2, mySql, postgreSql, oracle, sqlServer, sqLite]

-- ============================================================= look-up

/-- The dialect with a given name, in any letter case. -/
def lookup (name : String) : Result Dialect :=
  match all.find? fun d => Text.sameName d.name name with
  | some d => .ok d
  | none => .error (.configuration (.unknownDialect name))

def atVersion (d : Dialect) (version : Nat) : Result DialectVersion :=
  if d.versions.contains version then .ok ⟨d, version⟩
  else .error (.configuration (.unknownVersion d.name version d.versions))

/-- The versions that satisfy a filter. A choice of none is an error,
since whatever is done for each of them would silently not be done. -/
def selectVersions (d : Dialect) (filter : VersionFilter) : Result (List Nat) :=
  match d.versions.filter filter.accepts with
  | [] => .error (.configuration (.noVersions d.name filter))
  | versions => .ok versions

end Dialect

def DialectVersion.lookup (name : String) (version : Option Nat) : Result DialectVersion := do
  let dialect ← Dialect.lookup name
  dialect.atVersion (version.getD dialect.latestVersion)

end DialectDb
