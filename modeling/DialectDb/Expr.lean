/-
Expressions and queries as written. The two contain each other: a query
is made of expressions, and an expression can hold a query (EXISTS and
IN). Both carry no dialect: equivalent spellings have one form here.

Equality of expressions matters to evaluation, since GROUP BY
expressions and aggregate calls are recognized by it, so it is decided
below; `Expr.same_iff` says that the decision is right.
-/
import DialectDb.Value
import DialectDb.Operator
import DialectDb.Parameter

namespace DialectDb

-- =============================================================== parts

inductive SortDirection
  | ascending
  | descending
deriving DecidableEq

inductive JoinKind
  | cross
  | inner
  | left
  | right
deriving DecidableEq

/-- What an index hint asks for. -/
inductive IndexAction
  | use
  | ignore
  | force
deriving DecidableEq

/-- The clause that an index hint is for. -/
inductive IndexScope
  | join
  | orderBy
  | groupBy
deriving DecidableEq

/-- A hint on a table. Hints are kept and never change a result. -/
inductive TableHint
  | table (text : String)
  | index (action : IndexAction) (scope : Option IndexScope) (indexes : List String)
deriving DecidableEq

/-- A table in a FROM or JOIN clause. -/
structure TableRef where
  name : String
  aliasName : Option String
  hints : List TableHint
deriving DecidableEq

/-- The name under which columns refer to the table. -/
def TableRef.label (t : TableRef) : String :=
  t.aliasName.getD t.name

-- =============================================================== trees

mutual

inductive Expr where
  /-- All columns, `*`. -/
  | all
  | column (table : Option String) (name : String)
  | literal (value : Value)
  | parameter (placeholder : Placeholder)
  /-- In an upsert assignment: the column of the row that was to be
  inserted. -/
  | excluded (column : String)
  | call (function : String) (arguments : List Expr)
  | unary (op : UnaryOp) (operand : Expr)
  | binary (op : BinaryOp) (left right : Expr)
  | inList (operand : Expr) (items : List Expr)
  | exists (query : Select)
  | inQuery (operand : Expr) (query : Select)

structure Select where
  ctes : List Cte
  distinct : Bool
  columns : List SelectItem
  source : Option TableRef
  joins : List Join
  predicate : Option Expr
  groupBy : List Expr
  having : Option Expr
  /-- Further queries whose rows are appended. ORDER BY, OFFSET and
  LIMIT apply to all rows together. -/
  unions : List UnionBranch
  orderBy : List SortKey
  offset : Option Expr
  limit : Option Expr
  queryHints : List String

/-- A named query of a WITH clause. -/
structure Cte where
  name : String
  /-- Names for the columns of the result; none to keep its own. -/
  columns : List String
  recursive : Bool
  /-- Whether MATERIALIZED or NOT MATERIALIZED was asked for. -/
  materialized : Option Bool
  body : Select

structure SelectItem where
  expr : Expr
  aliasName : Option String

structure Join where
  kind : JoinKind
  table : TableRef
  predicate : Option Expr

/-- A query after UNION or UNION ALL. -/
structure UnionBranch where
  all : Bool
  select : Select

structure SortKey where
  expr : Expr
  direction : SortDirection

end

-- ============================================================ equality

mutual

/-- Whether two expressions are equal. -/
def Expr.same : Expr → Expr → Bool
  | .all, .all => true
  | .column t n, .column t' n' => decide (t = t') && decide (n = n')
  | .literal v, .literal v' => decide (v = v')
  | .parameter p, .parameter p' => decide (p = p')
  | .excluded c, .excluded c' => decide (c = c')
  | .call f as, .call f' as' => decide (f = f') && Expr.sameList as as'
  | .unary op e, .unary op' e' => decide (op = op') && e.same e'
  | .binary op l r, .binary op' l' r' => decide (op = op') && (l.same l' && r.same r')
  | .inList e is, .inList e' is' => e.same e' && Expr.sameList is is'
  | .exists q, .exists q' => q.same q'
  | .inQuery e q, .inQuery e' q' => e.same e' && q.same q'
  | _, _ => false
termination_by structural e => e

def Expr.sameList : List Expr → List Expr → Bool
  | [], [] => true
  | e :: es, e' :: es' => e.same e' && Expr.sameList es es'
  | _, _ => false
termination_by structural es => es

def Expr.sameOption : Option Expr → Option Expr → Bool
  | none, none => true
  | some e, some e' => e.same e'
  | _, _ => false
termination_by structural e => e

def Select.same : Select → Select → Bool
  | ⟨cs, d, is, s, js, p, gs, h, us, ks, o, l, hs⟩,
    ⟨cs', d', is', s', js', p', gs', h', us', ks', o', l', hs'⟩ =>
    Cte.sameList cs cs' && (decide (d = d') && (SelectItem.sameList is is'
      && (decide (s = s') && (Join.sameList js js' && (Expr.sameOption p p'
      && (Expr.sameList gs gs' && (Expr.sameOption h h' && (UnionBranch.sameList us us'
      && (SortKey.sameList ks ks' && (Expr.sameOption o o' && (Expr.sameOption l l'
      && decide (hs = hs'))))))))))))
termination_by structural q => q

def Cte.sameList : List Cte → List Cte → Bool
  | [], [] => true
  | ⟨n, cs, r, m, b⟩ :: es, ⟨n', cs', r', m', b'⟩ :: es' =>
    decide (n = n') && (decide (cs = cs') && (decide (r = r') && (decide (m = m')
      && (b.same b' && Cte.sameList es es'))))
  | _, _ => false
termination_by structural es => es

def SelectItem.sameList : List SelectItem → List SelectItem → Bool
  | [], [] => true
  | ⟨e, a⟩ :: es, ⟨e', a'⟩ :: es' =>
    e.same e' && (decide (a = a') && SelectItem.sameList es es')
  | _, _ => false
termination_by structural es => es

def Join.sameList : List Join → List Join → Bool
  | [], [] => true
  | ⟨k, t, p⟩ :: es, ⟨k', t', p'⟩ :: es' =>
    decide (k = k') && (decide (t = t') && (Expr.sameOption p p' && Join.sameList es es'))
  | _, _ => false
termination_by structural es => es

def UnionBranch.sameList : List UnionBranch → List UnionBranch → Bool
  | [], [] => true
  | ⟨a, q⟩ :: es, ⟨a', q'⟩ :: es' =>
    decide (a = a') && (q.same q' && UnionBranch.sameList es es')
  | _, _ => false
termination_by structural es => es

def SortKey.sameList : List SortKey → List SortKey → Bool
  | [], [] => true
  | ⟨e, d⟩ :: es, ⟨e', d'⟩ :: es' =>
    e.same e' && (decide (d = d') && SortKey.sameList es es')
  | _, _ => false
termination_by structural es => es

end

mutual

theorem Expr.same_iff : ∀ a b : Expr, a.same b = true ↔ a = b
  | .all, b => by cases b <;> simp [Expr.same]
  | .column .., b => by cases b <;> simp [Expr.same]
  | .literal _, b => by cases b <;> simp [Expr.same]
  | .parameter _, b => by cases b <;> simp [Expr.same]
  | .excluded _, b => by cases b <;> simp [Expr.same]
  | .call _ as, b => by cases b <;> simp [Expr.same, Expr.sameList_iff as]
  | .unary _ e, b => by cases b <;> simp [Expr.same, Expr.same_iff e]
  | .binary _ l r, b => by cases b <;> simp [Expr.same, Expr.same_iff l, Expr.same_iff r]
  | .inList e is, b => by cases b <;> simp [Expr.same, Expr.same_iff e, Expr.sameList_iff is]
  | .exists q, b => by cases b <;> simp [Expr.same, Select.same_iff q]
  | .inQuery e q, b => by cases b <;> simp [Expr.same, Expr.same_iff e, Select.same_iff q]
termination_by structural a => a

theorem Expr.sameList_iff : ∀ a b : List Expr, Expr.sameList a b = true ↔ a = b
  | [], b => by cases b <;> simp [Expr.sameList]
  | e :: es, b => by
    cases b <;> simp [Expr.sameList, Expr.same_iff e, Expr.sameList_iff es]
termination_by structural a => a

theorem Expr.sameOption_iff : ∀ a b : Option Expr, Expr.sameOption a b = true ↔ a = b
  | none, b => by cases b <;> simp [Expr.sameOption]
  | some e, b => by cases b <;> simp [Expr.sameOption, Expr.same_iff e]
termination_by structural a => a

theorem Select.same_iff : ∀ a b : Select, a.same b = true ↔ a = b
  | ⟨cs, _, is, _, js, p, gs, h, us, ks, o, l, _⟩, b => by
    cases b
    simp [Select.same, Cte.sameList_iff cs, SelectItem.sameList_iff is, Join.sameList_iff js,
      Expr.sameOption_iff p, Expr.sameList_iff gs, Expr.sameOption_iff h,
      UnionBranch.sameList_iff us, SortKey.sameList_iff ks, Expr.sameOption_iff o,
      Expr.sameOption_iff l]
termination_by structural a => a

theorem Cte.sameList_iff : ∀ a b : List Cte, Cte.sameList a b = true ↔ a = b
  | [], b => by cases b <;> simp [Cte.sameList]
  | ⟨_, _, _, _, q⟩ :: es, b => by
    rcases b with _ | ⟨⟨⟩, _⟩
    · simp [Cte.sameList]
    · simp [Cte.sameList, Select.same_iff q, Cte.sameList_iff es, and_assoc]
termination_by structural a => a

theorem SelectItem.sameList_iff :
    ∀ a b : List SelectItem, SelectItem.sameList a b = true ↔ a = b
  | [], b => by cases b <;> simp [SelectItem.sameList]
  | ⟨e, _⟩ :: es, b => by
    rcases b with _ | ⟨⟨⟩, _⟩
    · simp [SelectItem.sameList]
    · simp [SelectItem.sameList, Expr.same_iff e, SelectItem.sameList_iff es, and_assoc]
termination_by structural a => a

theorem Join.sameList_iff : ∀ a b : List Join, Join.sameList a b = true ↔ a = b
  | [], b => by cases b <;> simp [Join.sameList]
  | ⟨_, _, p⟩ :: es, b => by
    rcases b with _ | ⟨⟨⟩, _⟩
    · simp [Join.sameList]
    · simp [Join.sameList, Expr.sameOption_iff p, Join.sameList_iff es, and_assoc]
termination_by structural a => a

theorem UnionBranch.sameList_iff :
    ∀ a b : List UnionBranch, UnionBranch.sameList a b = true ↔ a = b
  | [], b => by cases b <;> simp [UnionBranch.sameList]
  | ⟨_, q⟩ :: es, b => by
    rcases b with _ | ⟨⟨⟩, _⟩
    · simp [UnionBranch.sameList]
    · simp [UnionBranch.sameList, Select.same_iff q, UnionBranch.sameList_iff es, and_assoc]
termination_by structural a => a

theorem SortKey.sameList_iff : ∀ a b : List SortKey, SortKey.sameList a b = true ↔ a = b
  | [], b => by cases b <;> simp [SortKey.sameList]
  | ⟨e, _⟩ :: es, b => by
    rcases b with _ | ⟨⟨⟩, _⟩
    · simp [SortKey.sameList]
    · simp [SortKey.sameList, Expr.same_iff e, SortKey.sameList_iff es, and_assoc]
termination_by structural a => a

end

instance : DecidableEq Expr := fun a b =>
  decidable_of_iff (a.same b = true) (Expr.same_iff a b)

instance : DecidableEq Select := fun a b =>
  decidable_of_iff (a.same b = true) (Select.same_iff a b)

end DialectDb
