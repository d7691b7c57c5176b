/-
Which values a column of a given type can hold, and as what. Integers
widen to floating point numbers, integral floating point numbers narrow
to integers, and 0 and 1 are booleans. NULL goes everywhere; whether a
column takes it is for the table to say.
-/
import DialectDb.Error

namespace DialectDb.Value

-- =========================================================== coercion

/-- The integer that a floating point number narrows to: it has to be
integral and between the two ends of the 64-bit range. The upper end
is read as the nearest floating point number, which is one greater than
the greatest integer; it narrows to the greatest integer. -/
def narrow? (d : Double) : Option Int64 := do
  let i ← d.toInt?
  if Int64.minValue.toInt ≤ i ∧ i ≤ Int64.maxValue.toInt + 1 then
    some (Int64.ofInt (min i Int64.maxValue.toInt))
  else none

/-- A value as a column of the given type stores it. -/
def coerce (value : Value) (type : DataType) : Result Value :=
  let refused := .error (.typeMismatch (.store value type))
  match value, type with
  | null, _ => .ok null
  | boolean b, .boolean => .ok (boolean b)
  | integer i, .integer => .ok (integer i)
  | float d, .float => .ok (float d)
  | string s, .string => .ok (string s)
  | integer i, .float => .ok (float (Double.ofInt i.toInt))
  | float d, .integer =>
    match narrow? d with
    | some i => .ok (integer i)
    | none => refused
  | integer i, .boolean =>
    if i = 0 then .ok (boolean false) else if i = 1 then .ok (boolean true) else refused
  | _, _ => refused

-- ============================================================== access

/-- The boolean that a value is. -/
def toBoolean : Value → Result Bool
  | boolean b => .ok b
  | value => .error (.typeMismatch (.cast .boolean value))

/-- The integer that a value is. -/
def toInteger : Value → Result Int64
  | integer i => .ok i
  | value => .error (.typeMismatch (.cast .integer value))

/-- The floating point number that a value is. -/
def toFloat : Value → Result Double
  | float d => .ok d
  | value => .error (.typeMismatch (.cast .float value))

/-- The string that a value is. -/
def toText : Value → Result String
  | string s => .ok s
  | value => .error (.typeMismatch (.cast .string value))

end DialectDb.Value
