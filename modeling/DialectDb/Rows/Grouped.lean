/-
Grouping rows and aggregating the groups. Rows with the same values of
the grouping formulas form a group; the groups come out in the total
order of these values, as a row of them and of the aggregates. NULLs are
not aggregated. Without grouping formulas there is one group, of all
rows, even if there are none.
-/
import Std.Data.TreeMap
import DialectDb.Rows

namespace DialectDb

-- ======================================================== accumulators

/-- An aggregate function of the values of a formula. -/
structure AggregateCall where
  function : Aggregate
  argument : Formula

/-- What has been aggregated so far. Without any value there is no sum
and no extreme. -/
inductive Accumulator
  | average (count : Nat) (sum : Value)
  | count (count : Nat)
  | max (greatest : Option Value)
  | min (least : Option Value)
  | sum (sum : Option Value)

namespace Accumulator

def initial : Aggregate → Accumulator
  | .average => average 0 (.integer 0)
  | .count => count 0
  | .max => max none
  | .min => min none
  | .sum => sum none

/-- Takes in a value. Of values in the same place of the order, extremes
keep the first. -/
def add (a : Accumulator) (value : Value) : Result Accumulator :=
  if value = .null then .ok a
  else
    match a with
    | average n total => do return average (n + 1) (← total.add value)
    | count n => .ok (count (n + 1))
    | max none => .ok (max value)
    | max (some greatest) =>
      .ok (max (if value.totalCompare greatest = .gt then value else greatest))
    | min none => .ok (min value)
    | min (some least) =>
      .ok (min (if value.totalCompare least = .lt then value else least))
    | sum none => do return sum (some (← (Value.integer 0).add value))
    | sum (some total) => do return sum (some (← total.add value))

/-- The aggregate. An average is a floating point number also of
integers. -/
def value : Accumulator → Result Value
  | average 0 _ => .ok .null
  | average n (.integer total) =>
    (Value.float (.ofInt total.toInt)).divide (.float (.ofInt n))
  | average n total => total.divide (.float (.ofInt n))
  | count n => .ok (.integer (Int64.ofNat n))
  | max value? | min value? | sum value? => .ok (value?.getD .null)

end Accumulator

-- ============================================================== groups

/-- What has been aggregated of each group, under the values of its
grouping formulas and in their order. -/
abbrev Groups := Std.TreeMap Row (List Accumulator) Value.totalCompareRows

/-- What to group by and what to aggregate. -/
structure Grouping where
  keys : List Formula
  calls : List AggregateCall

namespace Grouping

def initial (g : Grouping) : List Accumulator :=
  g.calls.map fun call => Accumulator.initial call.function

/-- Takes the values of a row into accumulators. -/
def addValues (row : Row) : List AggregateCall → List Accumulator → Result (List Accumulator)
  | call :: calls, a :: accumulators => do
    let value ← call.argument.eval row
    let a ← a.add value
    return a :: (← addValues row calls accumulators)
  | _, _ => .ok []

/-- Takes a row into its group, which begins with it if there is none
yet. -/
def addRow (g : Grouping) (groups : Groups) (row : Row) : Result Groups := do
  let key ← Formula.evalList row g.keys
  return groups.insert key (← addValues row g.calls (groups.getD key g.initial))

/-- The row of a group. -/
def groupRow (key : Row) (accumulators : List Accumulator) : Result Row := do
  return key ++ (← accumulators.mapM Accumulator.value)

/-- The rows of the groups of some rows. All rows are read; an average
is taken only when the row of its group is. -/
def rows (g : Grouping) (input : Rows) : Result Rows := do
  let groups ← input.fold g.addRow ∅
  if groups.isEmpty && g.keys.isEmpty then return .each (groupRow []) [g.initial]
  else return .each (fun (key, accumulators) => groupRow key accumulators) groups.toList

end Grouping

end DialectDb
