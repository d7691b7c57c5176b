/-
The two orders on values. `compare` is SQL comparison: it may have no
answer (NULL and NaN compare with nothing) and may fail (a boolean and a
number do not compare). `totalCompare` is the order for sorting,
grouping and least or greatest values: it always answers, and answers
"equal" only for identical values.
-/
import DialectDb.Error

namespace DialectDb.Value

-- ====================================================== SQL comparison

/-- The number that a string is, for a comparison with a number. -/
def readNumber (text : String) (number : Value) : Result Double :=
  match Double.ofText? (Text.trim text) with
  | some d => .ok d
  | none => .error (.typeMismatch (.compareText text number))

/-- SQL comparison. Numbers compare by value, an integer taking the
nearest floating point number where the other side is one. A string
compares with a number as the number that it reads as. -/
def compare : Value → Value → Result (Option Ordering)
  | null, _ | _, null => .ok none
  | boolean a, boolean b => .ok (some (Ord.compare a b))
  | integer a, integer b => .ok (some (Ord.compare a.toInt b.toInt))
  | integer a, float b => .ok ((Double.ofInt a.toInt).compare? b)
  | float a, integer b => .ok (a.compare? (Double.ofInt b.toInt))
  | float a, float b => .ok (a.compare? b)
  | string a, string b => .ok (some (Ord.compare a b))
  | string s, integer b => do
    return (← readNumber s (integer b)).compare? (Double.ofInt b.toInt)
  | string s, float b => do
    return (← readNumber s (float b)).compare? b
  | integer a, string s => do
    return (Double.ofInt a.toInt).compare? (← readNumber s (integer a))
  | float a, string s => do
    return a.compare? (← readNumber s (float a))
  | a, b => .error (.typeMismatch (.compare a b))

-- ========================================================= total order

/-- NULL comes before the booleans, they before the numbers, and those
before the strings. -/
def rank : Value → Nat
  | null => 0
  | boolean _ => 1
  | integer _ | float _ => 2
  | string _ => 3

/-- The total order. An integer comes just before the floating point
number that it converts to. -/
def totalCompare : Value → Value → Ordering
  | boolean a, boolean b => Ord.compare a b
  | integer a, integer b => Ord.compare a.toInt b.toInt
  | integer a, float b => ((Double.ofInt a.toInt).totalCompare b).then .lt
  | float a, integer b => (a.totalCompare (Double.ofInt b.toInt)).then .gt
  | float a, float b => a.totalCompare b
  | string a, string b => Ord.compare a b
  | a, b => Ord.compare a.rank b.rank

def totalCompareRows : Row → Row → Ordering
  | [], [] => .eq
  | [], _ :: _ => .lt
  | _ :: _, [] => .gt
  | a :: as, b :: bs => (totalCompare a b).then (totalCompareRows as bs)

/-- Values in ascending order; equal ones keep their places. -/
def sort (values : List Value) : List Value :=
  values.mergeSort fun a b => totalCompare a b != .gt

end DialectDb.Value
