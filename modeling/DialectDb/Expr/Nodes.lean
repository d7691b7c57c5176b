/-
The nodes of an expression. They include the arguments of calls, the
lists of IN and the left side of IN (SELECT ...), but nothing inside a
query: a query has names, groups and rows of its own, so what it
contains says nothing about the expression around it.
-/
import DialectDb.Expr

namespace DialectDb.Expr

/-- The expressions right below a node; a query below it is none. -/
def operands : Expr → List Expr
  | .call _ arguments => arguments
  | .unary _ e => [e]
  | .binary _ l r => [l, r]
  | .inList e items => e :: items
  | .inQuery e _ => [e]
  | _ => []

mutual

/-- The nodes of an expression, each before its operands. -/
def nodes : Expr → List Expr
  | .call f arguments => .call f arguments :: nodesOfList arguments
  | .unary op e => .unary op e :: e.nodes
  | .binary op l r => .binary op l r :: (l.nodes ++ r.nodes)
  | .inList e items => .inList e items :: (e.nodes ++ nodesOfList items)
  | .inQuery e q => .inQuery e q :: e.nodes
  | e => [e]
termination_by structural e => e

def nodesOfList : List Expr → List Expr
  | [] => []
  | e :: es => e.nodes ++ nodesOfList es
termination_by structural es => es

end

def contains (p : Expr → Bool) (e : Expr) : Bool :=
  e.nodes.any p

def isAggregate : Expr → Bool
  | .call f _ => (Aggregate.ofName? f).isSome
  | _ => false

def isSubquery : Expr → Bool
  | .exists _ | .inQuery _ _ => true
  | _ => false

def containsAggregate (e : Expr) : Bool := e.contains isAggregate

def containsSubquery (e : Expr) : Bool := e.contains isSubquery

end DialectDb.Expr
