/-
The rows of a result. They are computed one at a time, as they are read,
so a reader that stops early leaves the rest uncomputed, and a failure
takes the place of the row it belongs to and shows only when that row is
read. Taking and dropping count failures like rows: an offset passes
over them, and a limit ends before those behind it.

The work between two rows is cut into steps. A step that gives no row is
a `wait`, so no step is longer than the work on a single row of a table.
What the rows are in the end is `toList`.
-/
import Std.Data.HashSet
import DialectDb.Formula

namespace DialectDb

/-- Rows and, in the places of rows, failures, to be computed. -/
inductive Rows
  | done
  /-- A row or a failure, and what comes after it. -/
  | next (row : Result Row) (rest : Unit → Rows)
  /-- A step without a row. -/
  | wait (rest : Unit → Rows)

namespace Rows

-- ============================================================= reading

def toList : Rows → List (Result Row)
  | done => []
  | next row rest => row :: (rest ()).toList
  | wait rest => (rest ()).toList

/-- The first row or failure, if any. -/
def first? : Rows → Option (Result Row)
  | done => none
  | next row _ => some row
  | wait rest => (rest ()).first?

/-- Takes in row after row, up to the first failure. -/
def fold {α : Type} (step : α → Row → Result α) (a : α) : Rows → Result α
  | done => .ok a
  | next (.error e) _ => .error e
  | next (.ok row) rest =>
    match step a row with
    | .ok a => fold step a (rest ())
    | .error e => .error e
  | wait rest => fold step a (rest ())

def collect (rows : Rows) : Result (List Row) := do
  return (← rows.fold (fun read row => .ok (row :: read)) []).reverse

/-- The rows before the first failure, and the failure, given those read
before, the last of them first. -/
def readAfter (before : List Row) : Rows → List Row × Option Error
  | done => (before.reverse, none)
  | next (.error e) _ => (before.reverse, some e)
  | next (.ok row) rest => readAfter (row :: before) (rest ())
  | wait rest => readAfter before (rest ())

def read (rows : Rows) : List Row × Option Error := readAfter [] rows

-- ============================================================== making

/-- A row for each item of a list. -/
def each {α : Type} (row : α → Result Row) : List α → Rows
  | [] => done
  | a :: rest => next (row a) fun _ => each row rest

@[simp] theorem toList_each {α : Type} (row : α → Result Row) (items : List α) :
    (each row items).toList = items.map row := by
  induction items with
  | nil => rfl
  | cons a rest ih => simp [each, toList, ih]

def ofList (rows : List Row) : Rows := each .ok rows

@[simp] theorem toList_ofList (rows : List Row) : (ofList rows).toList = rows.map .ok :=
  toList_each .ok rows

/-- The rows that pass a condition. A failure of the condition takes the
place of the row. -/
def filter (condition : Formula) : Rows → Rows
  | done => done
  | next (.error e) rest => next (.error e) fun _ => filter condition (rest ())
  | next (.ok row) rest =>
    match Formula.holds (some condition) row with
    | .ok true => next (.ok row) fun _ => filter condition (rest ())
    | .ok false => wait fun _ => filter condition (rest ())
    | .error e => next (.error e) fun _ => filter condition (rest ())
  | wait rest => wait fun _ => filter condition (rest ())

def project (formulas : List Formula) : Rows → Rows
  | done => done
  | next row rest =>
    next (row >>= fun row => Formula.evalList row formulas) fun _ => project formulas (rest ())
  | wait rest => wait fun _ => project formulas (rest ())

@[simp] theorem toList_project (formulas : List Formula) (rows : Rows) :
    (rows.project formulas).toList =
      rows.toList.map (· >>= fun row => Formula.evalList row formulas) := by
  induction rows with
  | done => rfl
  | next row rest ih => simp [project, toList, ih]
  | wait rest ih => simp [project, toList, ih]

/-- The rows after the first `count` of them. -/
def drop (count : Nat) : Rows → Rows
  | done => done
  | next row rest =>
    match count with
    | 0 => next row rest
    | count + 1 => wait fun _ => drop count (rest ())
  | wait rest => wait fun _ => drop count (rest ())

@[simp] theorem toList_drop (count : Nat) (rows : Rows) :
    (rows.drop count).toList = rows.toList.drop count := by
  induction rows generalizing count with
  | done => simp [drop, toList]
  | next row rest ih => cases count <;> simp [drop, toList, ih]
  | wait rest ih => simp [drop, toList, ih]

/-- The first `count` rows. Nothing is computed after the last of
them. -/
def take (count : Nat) : Rows → Rows
  | done => done
  | next row rest =>
    match count with
    | 0 => done
    | 1 => next row fun _ => done
    | count + 2 => next row fun _ => take (count + 1) (rest ())
  | wait rest => if count = 0 then done else wait fun _ => take count (rest ())

@[simp] theorem toList_take (count : Nat) (rows : Rows) :
    (rows.take count).toList = rows.toList.take count := by
  induction rows generalizing count with
  | done => simp [take, toList]
  | next row rest ih =>
    match count with
    | 0 => simp [take, toList]
    | 1 => simp [take, toList]
    | count + 2 => simp [take, toList, ih]
  | wait rest ih => by_cases h : count = 0 <;> simp [take, toList, h, ih]

-- ============================================================ duplicates

/-- Rows without later duplicates, given the rows to leave out and those
that were kept, the last of them first. -/
def distinctAfter (seen : Std.HashSet Row) (kept : List Row) : List Row → List Row
  | [] => kept.reverse
  | row :: rows =>
    if seen.contains row then distinctAfter seen kept rows
    else distinctAfter (seen.insert row) (row :: kept) rows

def distinct (rows : List Row) : List Row := distinctAfter {} [] rows

end Rows

end DialectDb
