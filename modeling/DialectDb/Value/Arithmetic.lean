/-
Arithmetic on values. Integers are computed exactly and fail where the
result has no place in 64 bits; nothing wraps. As soon as one operand is
a floating point number the other is converted to one. NULL with a
number or with NULL is NULL, and any other pair is a type mismatch.
-/
import DialectDb.Error
import DialectDb.Double.Arithmetic

namespace DialectDb.Value

-- ============================================================ integers

def ofInt (i : Int) : Result Value :=
  if Int64.minValue.toInt ≤ i ∧ i ≤ Int64.maxValue.toInt then .ok (integer (Int64.ofInt i))
  else .error (.invalid .integerOverflow)

/-- The quotient of two integers, truncated toward zero. -/
def quotient (a b : Int64) : Result Value :=
  if b = 0 then .error (.invalid .divisionByZero) else ofInt (a.toInt.tdiv b.toInt)

/-- The remainder of that division, with the sign of the dividend. It
fails wherever the quotient does. -/
def remainder (a b : Int64) : Result Value :=
  if b = 0 then .error (.invalid .divisionByZero)
  else do
    let _ ← ofInt (a.toInt.tdiv b.toInt)
    ofInt (a.toInt.tmod b.toInt)

-- ============================================================== values

/-- An arithmetic operation from its two halves. -/
def arithmetic (op : BinaryOp) (integers : Int64 → Int64 → Result Value)
    (floats : Double → Double → Double) : Value → Value → Result Value
  | integer a, integer b => integers a b
  | integer a, float b => .ok (float (floats (Double.ofInt a.toInt) b))
  | float a, integer b => .ok (float (floats a (Double.ofInt b.toInt)))
  | float a, float b => .ok (float (floats a b))
  | null, null | null, integer _ | null, float _ | integer _, null | float _, null => .ok null
  | a, b => .error (.typeMismatch (.operands op a b))

def add : Value → Value → Result Value :=
  arithmetic .add (fun a b => ofInt (a.toInt + b.toInt)) Double.add

def subtract : Value → Value → Result Value :=
  arithmetic .subtract (fun a b => ofInt (a.toInt - b.toInt)) Double.sub

def multiply : Value → Value → Result Value :=
  arithmetic .multiply (fun a b => ofInt (a.toInt * b.toInt)) Double.mul

def divide : Value → Value → Result Value :=
  arithmetic .divide quotient Double.div

def modulo : Value → Value → Result Value :=
  arithmetic .remainder remainder Double.rem

def negate : Value → Result Value
  | integer i => ofInt (-i.toInt)
  | float d => .ok (float d.neg)
  | null => .ok null
  | value => .error (.typeMismatch (.operand .negate value))

def absolute : Value → Result Value
  | integer i => ofInt i.toInt.natAbs
  | float d => .ok (float d.abs)
  | null => .ok null
  | value => .error (.typeMismatch (.argument .abs value))

end DialectDb.Value
