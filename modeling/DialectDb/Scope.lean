/-
Scopes: which names an expression can use, and where in a row their
values are. Resolving an expression in a scope turns it into a formula,
or fails for a name that is unknown or ambiguous, before any row is
looked at.

Two things go beyond a list of labels. After grouping, whole expressions
have places in the row (`slots`), and are recognized wherever they
occur. And in a subquery a column that the query itself does not have is
looked up in the rows of the queries around it, from the inside out; its
value there is a constant.
-/
import DialectDb.Expr.Nodes
import DialectDb.Formula

namespace DialectDb

-- ============================================================== labels

/-- The label of a column. -/
inductive Label
  | none
  | unqualified (name : String)
  | qualified (table name : String)
deriving DecidableEq

namespace Label

def name? : Label → Option String
  | none => .none
  | unqualified name | qualified _ name => some name

/-- The label without its table. -/
def withoutTable : Label → Label
  | none => none
  | unqualified name | qualified _ name => unqualified name

/-- Whether a reference to a column, with or without a table, is to this
label. -/
def isNamed (table : Option String) (column : String) : Label → Bool
  | none => false
  | unqualified name => table.isNone && Text.sameName name column
  | qualified own name =>
    table.all (Text.sameName own) && Text.sameName name column

/-- A label as a reference; a question mark if there is none. -/
def text : Label → String
  | none => "?"
  | unqualified name => name
  | qualified table name => table ++ "." ++ name

/-- The name of a result's column. -/
def columnName (l : Label) : String :=
  l.name?.getD "?"

end Label

def referenceText (table : Option String) (column : String) : String :=
  match table with
  | some table => table ++ "." ++ column
  | none => column

-- ============================================================== scopes

/-- An expression whose value has a place in the row. -/
structure Slot where
  expr : Expr
  index : Nat

/-- The columns of a row. -/
structure Layout where
  labels : List Label
  slots : List Slot := []

/-- A row of a query around a subquery, and its columns. -/
structure Frame where
  layout : Layout
  row : Row

/-- What an expression can refer to: the columns of the rows it is
evaluated on, and the rows around them, the innermost first. -/
structure Scope where
  layout : Layout
  outer : List Frame := []

/-- The table of the row that was to be inserted, in upsert
assignments. -/
def excludedTable : String := "excluded"

namespace Layout

/-- The place of a column: none if it is unknown, and a failure if there
are several. -/
def find? (layout : Layout) (table : Option String) (column : String) :
    Result (Option Nat) :=
  match layout.labels.zipIdx.filter fun (label, _) => label.isNamed table column with
  | [] => .ok none
  | [(_, index)] => .ok (some index)
  | _ :: _ :: _ => .error (.schema (.ambiguousColumn (referenceText table column)))

/-- The place of an expression that has one. -/
def slot? (layout : Layout) (e : Expr) : Option Nat :=
  (layout.slots.find? (·.expr = e)).map (·.index)

end Layout

/-- The value of a column in the rows around a subquery. -/
def Frame.lookup (table : Option String) (column : String) : List Frame → Result Value
  | [] => .error (.schema (.unknownColumn (referenceText table column)))
  | frame :: rest =>
    match frame.layout.slot? (.column table column) with
    | some index => (Formula.column index).eval frame.row
    | none => do
      match ← frame.layout.find? table column with
      | some index => (Formula.column index).eval frame.row
      | none => lookup table column rest

namespace Scope

-- ======================================================== construction

/-- The scope of expressions that refer to no columns. -/
def empty : Scope := { layout := { labels := [] } }

def ofLabels (labels : List Label) : Scope := { layout := { labels } }

/-- The scope of the columns of a table. -/
def ofColumns (table : String) (columns : List String) : Scope :=
  ofLabels (columns.map (Label.qualified table))

def width (s : Scope) : Nat := s.layout.labels.length

def labels (s : Scope) : List Label := s.layout.labels

def tables (labels : List Label) : List String :=
  labels.filterMap fun
    | .qualified table _ => some (Text.lower table)
    | _ => none

/-- The columns of two scopes, one after the other. No table can be on
both sides. -/
def merge (s other : Scope) : Result Scope :=
  match (tables other.labels).find? (tables s.labels).contains with
  | some table => .error (.schema (.duplicateTable table))
  | none => .ok { s with layout := { s.layout with labels := s.labels ++ other.labels } }

/-- Appends a column that holds the values of an expression. -/
def addExpression (s : Scope) (e : Expr) (label : Label) : Scope :=
  { s with
    layout := ⟨s.labels ++ [label], s.layout.slots ++ [⟨e, s.width⟩]⟩ }

-- ========================================================== resolution

def lookup (s : Scope) (table : Option String) (column : String) : Result Nat := do
  match ← s.layout.find? table column with
  | some index => .ok index
  | none => .error (.schema (.unknownColumn (referenceText table column)))

/-- A column of the rows or, failing that, its value around them. -/
def resolveColumn (s : Scope) (table : Option String) (column : String) : Result Formula := do
  match ← s.layout.find? table column with
  | some index => .ok (.column index)
  | none => .const <$> Frame.lookup table column s.outer

/-- The formula of an operator with two operands. -/
def binaryFormula (op : BinaryOp) (left right : Formula) : Result Formula :=
  if op = .like then Formula.like left right else .ok (.binary op left right)

mutual

/-- The formula of an expression. -/
def resolve (s : Scope) (e : Expr) : Result Formula :=
  match s.layout.slot? e with
  | some index => .ok (.column index)
  | none =>
    match e with
    | .all => .error (.invalid .starNotValid)
    | .column table column => s.resolveColumn table column
    | .literal value => .ok (.const value)
    | .parameter placeholder => .error (.binding (.notBound placeholder))
    | .excluded column => .column <$> s.lookup excludedTable column
    | .exists _ | .inQuery _ _ => .error (.invalid .subqueryNotValid)
    | .call name arguments =>
      if (Aggregate.ofName? name).isSome then .error (.invalid (.aggregateNotValid name))
      else do
        let function ← Function.lookup name arguments.length
        return .call function (← s.resolveList arguments)
    | .unary op operand => do return .unary op (← s.resolve operand)
    | .binary op left right => do
      let left ← s.resolve left
      binaryFormula op left (← s.resolve right)
    | .inList operand items => do
      let operand ← s.resolve operand
      return .inList operand (← s.resolveList items)
termination_by structural e

def resolveList (s : Scope) (es : List Expr) : Result (List Formula) :=
  match es with
  | [] => .ok []
  | e :: es => do
    let e ← s.resolve e
    return e :: (← s.resolveList es)
termination_by structural es

end

/-- The value of an expression that refers to no columns. -/
def evalConstant (e : Expr) : Result Value := do
  (← empty.resolve e).eval []

end Scope

end DialectDb
