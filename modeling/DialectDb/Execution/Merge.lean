/-
MERGE: source rows are matched with the rows of a target table. A target
row that a source row matches takes the first clause WHEN MATCHED that
applies, and a source row that matches none the first clause WHEN NOT
MATCHED. All clauses see the target as it was.

Each target row carries its fate through the loop over the source rows.
From the fates follow the rows that are left, in their order, and after
them come the rows that were inserted.
-/
import DialectDb.Execution.Rows

namespace DialectDb.Merge

-- ============================================================= clauses

/-- What a clause does, with its names resolved. -/
inductive ClauseAction
  | update (assignments : List PlaceAssignment)
  | delete
  | insert (places : List Nat) (values : List Formula)

/-- A clause, with its names resolved. -/
structure Clause where
  matched : Bool
  condition : Option Formula
  action : ClauseAction

def resolveAction (t : Table) (scope : Scope) : MergeAction → Result ClauseAction
  | .update assignments => do
    return .update (← Assignment.resolveList t scope assignments)
  | .delete => .ok .delete
  | .insert columns values => do
    let places ← t.valuePlaces columns
    checkValueCount columns places.length values.length
    return .insert places (← scope.resolveList values)

def resolveClause (t : Table) (scope : Scope) (c : MergeClause) : Result Clause := do
  let condition ← c.condition.mapM scope.resolve
  return ⟨c.matched, condition, ← resolveAction t scope c.action⟩

def resolveClauses (t : Table) (scope : Scope) (clauses : List MergeClause) :
    Result (List Clause) :=
  clauses.mapM (resolveClause t scope)

/-- The first clause whose condition a row passes. -/
def firstApplicable (input : Row) : List Clause → Result (Option ClauseAction)
  | [] => .ok none
  | c :: rest => do
    if ← Formula.holds c.condition input then return some c.action
    else firstApplicable input rest

-- ============================================================ target rows

/-- What becomes of a target row. -/
inductive Fate
  /-- No source row has matched it. -/
  | unmatched
  /-- A source row has matched it, and no clause applied. -/
  | kept
  | updated (row : Row)
  | deleted

/-- A target row as it was, and what becomes of it. -/
structure Target where
  row : Row
  fate : Fate

def fateOf (t : Table) (target input : Row) : Option ClauseAction → Result Fate
  | none => .ok .kept
  | some (.update assignments) => do
    let row ← PlaceAssignment.applyAll input assignments target
    return .updated (← t.normalizeRow row)
  | some .delete => .ok .deleted
  | some (.insert _ _) => .error (.invalid .insertForMatched)

/-- Matches a source row with the target rows: whether it matches any,
and what becomes of them. -/
def matchTargets (t : Table) (predicate : Formula) (clauses : List Clause) (source : Row) :
    List Target → Result (Bool × List Target)
  | [] => .ok (false, [])
  | target :: rest => do
    let input := target.row ++ source
    if ← Formula.holds (some predicate) input then
      match target.fate with
      | .unmatched =>
        let fate ← fateOf t target.row input (← firstApplicable input clauses)
        let (_, rest) ← matchTargets t predicate clauses source rest
        return (true, ⟨target.row, fate⟩ :: rest)
      | _ => throw (.invalid .mergeMatchedTwice)
    else
      let (found, rest) ← matchTargets t predicate clauses source rest
      return (found, target :: rest)

-- ============================================================ source rows

/-- The row that a source row without a match inserts, if any. -/
def insertion (t : Table) (clauses : List Clause) (source : Row) : Result (Option Row) := do
  let input := List.replicate t.columns.length .null ++ source
  match ← firstApplicable input clauses with
  | none => return none
  | some (.insert places values) =>
    let values ← Formula.evalList input values
    return some (← t.buildRow places values)
  | some _ => throw (.invalid .insertOnlyForUnmatched)

/-- The target rows and the inserted rows after some of the source
rows. -/
structure Progress where
  targets : List Target
  inserted : List Row := []

/-- Takes a source row. -/
def takeSource (t : Table) (predicate : Formula) (clauses : List Clause) (p : Progress)
    (source : Row) : Result Progress := do
  let (found, targets) ←
    matchTargets t predicate (clauses.filter (·.matched)) source p.targets
  if found then return { p with targets }
  else
    let new ← insertion t (clauses.filter (!·.matched)) source
    return ⟨targets, p.inserted ++ new.toList⟩

def takeSources (t : Table) (predicate : Formula) (clauses : List Clause) (p : Progress)
    (source : List Row) : Result Progress :=
  source.foldlM (takeSource t predicate clauses) p

/-- A row of the result, and whether the statement has written it. -/
structure WrittenRow where
  row : Row
  written : Bool

/-- What is left of a target row. -/
def Target.survivor (target : Target) : Option WrittenRow :=
  match target.fate with
  | .unmatched | .kept => some ⟨target.row, false⟩
  | .updated row => some ⟨row, true⟩
  | .deleted => none

def Target.isChanged (target : Target) : Bool :=
  match target.fate with
  | .unmatched | .kept => false
  | .updated _ | .deleted => true

/-- The rows after all source rows. -/
def Progress.rows (p : Progress) : List WrittenRow :=
  p.targets.filterMap Target.survivor ++ p.inserted.map fun row => ⟨row, true⟩

def Progress.count (p : Progress) : Nat :=
  (p.targets.filter Target.isChanged).length + p.inserted.length

/-- The places of the rows that the statement has written. -/
def writtenPlaces (rows : List WrittenRow) : List Nat :=
  (rows.zipIdx.filter fun (r, _) => r.written).map Prod.snd

/-- Merges source rows into the rows of a table, and counts the rows
that this changes. Those that are written are checked against the final
rows. -/
def mergeRows (t : Table) (predicate : Formula) (clauses : List Clause) (source : List Row) :
    Action (Array Row) Nat := do
  let start : Progress := { targets := (← get).toList.map fun row => ⟨row, .unmatched⟩ }
  let p ← takeSources t predicate clauses start source
  let final := (p.rows.map (·.row)).toArray
  t.checkPlaces final (writtenPlaces p.rows)
  set final
  return p.count

-- =============================================================== MERGE

/-- The rows to merge, and their columns. -/
def sourceRows (version : DialectVersion) (store : Store) :
    MergeSource → Result (Scope × List Row)
  | .table table => do
    let relation ← ({ store } : Context).relation table.name
    return (Scope.ofColumns table.label relation.columns, relation.rows)
  | .query q aliasName => do
    let answer ← q.evaluate version store
    return (Scope.ofColumns aliasName answer.columns, ← answer.rows.collect)

def execute (m : Merge) (version : DialectVersion) : Action Store Effect := do
  let store ← get
  let (sourceScope, source) ← sourceRows version store m.source
  let table := (← store.get m.target.name).table
  let scope ← (Scope.ofColumns m.target.label table.columnNames).merge sourceScope
  let predicate ← scope.resolve m.predicate
  let clauses ← resolveClauses table scope m.clauses
  let count ← Store.mutate m.target.name fun table =>
    mergeRows table predicate clauses source
  return .merged count

end DialectDb.Merge
