/-
SQL values and their types. Equality of values is identity, not SQL
comparison: NULL equals NULL, floating point numbers are equal iff their
bits are, and the integer 1 is not the number 1.0. DISTINCT, GROUP BY
and unique keys go by it.
-/
import DialectDb.Text
import DialectDb.Double.Decimal

namespace DialectDb

-- =============================================================== types

/-- The types of stored values. The type names of the dialects (VARCHAR,
NUMBER, BIT, …) are spellings of these. -/
inductive DataType
  | boolean
  | integer
  | float
  | string
deriving DecidableEq

namespace DataType

def text : DataType → String
  | boolean => "BOOLEAN"
  | integer => "INTEGER"
  | float => "FLOAT"
  | string => "STRING"

/-- The names that dialects have for a type, in lower case. -/
def names : DataType → List String
  | boolean => ["bool", "boolean", "bit"]
  | integer =>
    ["int", "integer", "bigint", "smallint", "tinyint", "mediumint", "serial", "bigserial",
      "int2", "int4", "int8"]
  | float => ["float", "double", "real", "decimal", "numeric", "number", "money"]
  | string =>
    ["char", "nchar", "varchar", "nvarchar", "varchar2", "nvarchar2", "text", "ntext", "string",
      "clob", "date", "datetime", "datetime2", "timestamp", "time", "uuid", "uniqueidentifier"]

/-- The type with a given name, in any letter case. -/
def ofName? (name : String) : Option DataType :=
  let key := Text.lower name
  [boolean, integer, float, string].find? fun type => type.names.contains key

end DataType

-- ============================================================== values

/-- A value of a row, a literal or a parameter. -/
inductive Value
  | null
  | boolean (b : Bool)
  | integer (i : Int64)
  | float (d : Double)
  | string (s : String)
deriving DecidableEq, Hashable

namespace Value

/-- The type of a value; NULL belongs to all of them. -/
def type? : Value → Option DataType
  | null => none
  | boolean _ => some .boolean
  | integer _ => some .integer
  | float _ => some .float
  | string _ => some .string

/-- The text of a value in results, messages and concatenations. -/
def text : Value → String
  | null => "NULL"
  | boolean true => "TRUE"
  | boolean false => "FALSE"
  | integer i => toString i.toInt
  | float d => d.text
  | string s => s

end Value

/-- The values of a table's or a result's columns, in order. -/
abbrev Row := List Value

end DialectDb
