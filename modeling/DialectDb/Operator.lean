/-
The operators and scalar functions of expressions. Parsed and resolved
expressions share them, so an operator keeps its name from the text of a
statement to its evaluation.
-/

namespace DialectDb

inductive UnaryOp
  | not
  | identity
  | negate
  | isNull
deriving DecidableEq

inductive BinaryOp
  | and
  | or
  | equal
  | notEqual
  | greater
  | greaterEqual
  | less
  | lessEqual
  | add
  | subtract
  | multiply
  | divide
  | remainder
  | concat
  | like
deriving DecidableEq

/-- What an operator does to its operands, for messages. -/
def BinaryOp.verb : BinaryOp → String
  | and => "AND"
  | or => "OR"
  | equal | notEqual | greater | greaterEqual | less | lessEqual => "compare"
  | add => "add"
  | subtract => "subtract"
  | multiply => "multiply"
  | divide => "divide"
  | remainder => "take remainder of"
  | concat => "concatenate"
  | like => "LIKE"

/-- What an operator does to its operand, for messages. -/
def UnaryOp.verb : UnaryOp → String
  | not => "NOT"
  | identity => "take the positive of"
  | negate => "negate"
  | isNull => "test"

inductive Function
  | abs
  | coalesce
  | length
  | lower
  | upper
deriving DecidableEq

/-- The name under which a function is shown. -/
def Function.text : Function → String
  | abs => "ABS"
  | coalesce => "COALESCE"
  | length => "LENGTH"
  | lower => "LOWER"
  | upper => "UPPER"

inductive Aggregate
  | average
  | count
  | max
  | min
  | sum
deriving DecidableEq

/-- The aggregate function with a given name. Function names are in
lower case by the time they are looked up, unless they were quoted, and
then they name no function. -/
def Aggregate.ofName? : String → Option Aggregate
  | "avg" => some average
  | "count" => some count
  | "max" => some max
  | "min" => some min
  | "sum" => some sum
  | _ => none

end DialectDb
