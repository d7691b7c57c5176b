/-
Formulas: expressions whose columns are places in a row. Names, groups
and queries are gone by now, so a formula has a value on every row that
is wide enough, or fails for what the values are.
-/
import DialectDb.Pattern.Size
import DialectDb.Value.Order
import DialectDb.Value.Arithmetic

namespace DialectDb

/-- An expression over the places of a row. -/
inductive Formula
  | const (value : Value)
  | column (index : Nat)
  | unary (op : UnaryOp) (operand : Formula)
  | binary (op : BinaryOp) (left right : Formula)
  | inList (operand : Formula) (items : List Formula)
  /-- LIKE with a pattern that does not depend on the row. -/
  | likePattern (operand : Formula) (pattern : Pattern)
  | call (function : Function) (arguments : List Formula)

-- ============================================================== logic

namespace Value

/-- Conjunction, with NULL for unknown. -/
def and : Value → Value → Result Value
  | boolean a, boolean b => .ok (boolean (a && b))
  | boolean b, null | null, boolean b => .ok (if b then null else boolean false)
  | null, null => .ok null
  | a, b => .error (.typeMismatch (.operands .and a b))

def or : Value → Value → Result Value
  | boolean a, boolean b => .ok (boolean (a || b))
  | boolean b, null | null, boolean b => .ok (if b then boolean true else null)
  | null, null => .ok null
  | a, b => .error (.typeMismatch (.operands .or a b))

def not : Value → Result Value
  | boolean b => .ok (boolean !b)
  | null => .ok null
  | value => .error (.typeMismatch (.operand .not value))

/-- What a comparison says of two values: NULL where they have no
order. -/
def test (holds : Ordering → Bool) (a b : Value) : Result Value := do
  match ← a.compare b with
  | some ordering => .ok (boolean (holds ordering))
  | none => .ok null

-- ============================================================== text

/-- The texts of two values, one after the other. -/
def concat : Value → Value → Result Value
  | null, _ | _, null => .ok null
  | boolean _, _ | _, boolean _ => .error (.typeMismatch .concatenateBoolean)
  | a, b => .ok (string (a.text ++ b.text))

/-- Whether a string matches a pattern. -/
def likePattern : Value → Pattern → Result Value
  | string text, pattern => .ok (boolean (pattern.accepts text))
  | null, _ => .ok null
  | value, pattern => .error (.typeMismatch (.operands .like value (string pattern.text)))

/-- Whether a string matches the pattern that another string is. -/
def like : Value → Value → Result Value
  | string text, string pattern => do (string text).likePattern (← Pattern.ofText pattern)
  | string _, null | null, string _ | null, null => .ok null
  | a, b => .error (.typeMismatch (.operands .like a b))

end Value

-- ========================================================= operations

def UnaryOp.apply : UnaryOp → Value → Result Value
  | not, value => value.not
  | identity, .integer i => .ok (.integer i)
  | identity, .float d => .ok (.float d)
  | identity, .null => .ok .null
  | identity, value => .error (.typeMismatch (.operand .identity value))
  | negate, value => value.negate
  | isNull, value => .ok (.boolean (value = .null))

/-- The value of an operator with two operands. Both have been evaluated
before. -/
def BinaryOp.apply : BinaryOp → Value → Value → Result Value
  | and => Value.and
  | or => Value.or
  | equal => Value.test (· == .eq)
  | notEqual => Value.test (· != .eq)
  | greater => Value.test (· == .gt)
  | greaterEqual => Value.test (· != .lt)
  | less => Value.test (· == .lt)
  | lessEqual => Value.test (· != .gt)
  | add => Value.add
  | subtract => Value.subtract
  | multiply => Value.multiply
  | divide => Value.divide
  | remainder => Value.modulo
  | concat => Value.concat
  | like => Value.like

namespace Function

/-- The scalar function with a given name, for a number of arguments.
The names are in lower case. -/
def lookup (name : String) (count : Nat) : Result Function :=
  let exactly (n : Nat) (f : Function) : Result Function :=
    if count = n then .ok f else .error (.invalid (.argumentCount name n count))
  match name with
  | "abs" => exactly 1 abs
  | "coalesce" =>
    if count = 0 then .error (.invalid (.missingArgument name)) else .ok coalesce
  | "ifnull" | "nvl" | "isnull" => exactly 2 coalesce
  | "length" | "len" | "char_length" => exactly 1 length
  | "lower" | "lcase" => exactly 1 lower
  | "upper" | "ucase" => exactly 1 upper
  | _ => .error (.invalid (.unknownFunction name))

/-- A function of one string, with a type mismatch for other values. -/
def onText (function : Function) (f : String → Value) : Value → Result Value
  | .string s => .ok (f s)
  | .null => .ok .null
  | value => .error (.typeMismatch (.argument function value))

/-- The value of a function. The number of arguments was checked when
the function was looked up; those that are missing are NULL. -/
def apply (function : Function) (arguments : List Value) : Result Value :=
  let argument := arguments.headD .null
  match function with
  | coalesce => .ok ((arguments.find? (· != .null)).getD .null)
  | abs => argument.absolute
  | length => onText length (fun s => .integer (Int64.ofNat s.length)) argument
  | lower => onText lower (fun s => .string (Text.lower s)) argument
  | upper => onText upper (fun s => .string (Text.upper s)) argument

end Function

-- ========================================================== evaluation

namespace Formula

/-- LIKE. A constant pattern is fixed with the formula. -/
def like (left right : Formula) : Result Formula :=
  match right with
  | const (.string text) => do return likePattern left (← Pattern.ofText text)
  | right => .ok (binary .like left right)

mutual

/-- The value of a formula on a row. Operands are evaluated from left to
right and the first failure is the result. Only IN stops early: at a
NULL before its list, and at the first equal item. -/
def eval (row : Row) : Formula → Result Value
  | const value => .ok value
  | column index =>
    match row[index]? with
    | some value => .ok value
    | none => .error (.invalid (.columnOutOfBounds index))
  | unary op e => do op.apply (← e.eval row)
  | binary op l r => do
    let left ← l.eval row
    op.apply left (← r.eval row)
  | inList e items => do
    let value ← e.eval row
    if value = .null then .ok .null else evalMembership row value (.boolean false) items
  | likePattern e pattern => do Value.likePattern (← e.eval row) pattern
  | call function arguments => do function.apply (← evalList row arguments)
termination_by structural e => e

def evalList (row : Row) : List Formula → Result (List Value)
  | [] => .ok []
  | e :: es => do
    let value ← e.eval row
    return value :: (← evalList row es)
termination_by structural es => es

/-- Whether a value is among the items; `otherwise` if none of them is
equal to it, which becomes NULL at an item that it has no order with. -/
def evalMembership (row : Row) (value otherwise : Value) : List Formula → Result Value
  | [] => .ok otherwise
  | e :: es => do
    match ← value.compare (← e.eval row) with
    | some .eq => .ok (.boolean true)
    | some _ => evalMembership row value otherwise es
    | none => evalMembership row value .null es
termination_by structural es => es

end

/-- Whether a row passes a condition: NULL does not, and a value that is
no boolean is a failure. No condition passes every row. -/
def holds (condition : Option Formula) (row : Row) : Result Bool :=
  match condition with
  | none => .ok true
  | some e => do
    match ← e.eval row with
    | .boolean b => .ok b
    | .null => .ok false
    | value => .error (.typeMismatch (.filter value))

end Formula

end DialectDb
