/-
What rewriting does to the nodes of an expression. `transform` and
`nodes` go through an expression each in its own way; that they pass over
the same nodes is told by what is found afterwards. If every node of a
class is rewritten to one outside of it, and no other node is touched,
then none of the class is left, and nothing has changed if there was none.

A class tells nodes apart without looking at their operands. What does
look at them need not be cleared, since a node that is left alone still
has its operands rewritten: with placeholders made `TRUE` and `NOT TRUE`
made `FALSE`, `NOT ?` becomes `NOT TRUE`.

A result is looked at from above: its top node comes from that of the
expression, and its operands are results themselves. So what holds of it
is shown by induction on the result, whether or not rewriting ends.
That it ends where the operands of rewritten nodes are old ones, or
literals, takes an induction on the expression.

Binding placeholders, expanding subqueries and leaving them out are all
such rewritings.
-/
import DialectDb.Expr.Transform
import DialectDb.Proofs.GuardedRows
import DialectDb.Proofs.References

namespace DialectDb

-- =============================================================== nodes

/-- A node, with the number of its operands instead of them. -/
inductive Node where
  | all
  | column (table : Option String) (name : String)
  | literal (value : Value)
  | parameter (placeholder : Placeholder)
  | excluded (column : String)
  | call (function : String) (count : Nat)
  | unary (op : UnaryOp)
  | binary (op : BinaryOp)
  | inList (count : Nat)
  | exists (query : Select)
  | inQuery (query : Select)

/-- The node at the top of an expression. -/
def Expr.node : Expr → Node
  | .all => .all
  | .column table name => .column table name
  | .literal value => .literal value
  | .parameter placeholder => .parameter placeholder
  | .excluded name => .excluded name
  | .call function arguments => .call function arguments.length
  | .unary op _ => .unary op
  | .binary op _ _ => .binary op
  | .inList _ items => .inList items.length
  | .exists query => .exists query
  | .inQuery _ query => .inQuery query

namespace Node

/-- The placeholders of a node itself, those of its query included. -/
def placeholders : Node → List Placeholder
  | .parameter placeholder => [placeholder]
  | .exists query | .inQuery query => query.placeholders
  | _ => []

end Node

namespace Expr

/-- A node with its operands replaced, by what needs to know only what
they are. -/
abbrev descendWith (f : Expr → Result Expr) (e : Expr) : Result Expr :=
  e.descend fun o _ => f o

private theorem attach_mapM (f : Expr → Result Expr) (es : List Expr) :
    (es.attach.mapM fun o => f o.1) = es.mapM f := by
  rw [List.mapM_subtype fun _ _ => rfl, List.unattach_attach]

theorem descendWith_call (f : Expr → Result Expr) (name : String) (arguments : List Expr) :
    descendWith f (.call name arguments) = do return .call name (← arguments.mapM f) := by
  rw [← attach_mapM]
  rfl

theorem descendWith_inList (f : Expr → Result Expr) (e : Expr) (items : List Expr) :
    descendWith f (.inList e items) = do
      let operand ← f e
      return .inList operand (← items.mapM f) := by
  rw [← attach_mapM]
  rfl

variable {before after : Expr → Result Expr} {P : Expr → Bool} {e e' : Expr}

/-- Rewriting an expression ends, in a result. -/
def Transforms (before after : Expr → Result Expr) (e : Expr) (r : Result Expr) : Prop :=
  ∃ h : Ends before e, transform before after e h = r

/-- Rewriting ends if it does on the operands of what the node is
rewritten to. -/
theorem ends_of_below
    (h : ∀ rewritten, before e = .ok rewritten → ∀ o ∈ rewritten.operands, Ends before o) :
    Ends before e :=
  ⟨e, fun o ⟨rewritten, hbefore, ho⟩ => h rewritten hbefore o ho⟩

theorem transform_of_error (h : Ends before e) {failure : Error}
    (hbefore : before e = .error failure) : transform before after e h = .error failure := by
  rw [transform]
  split
  · next heq => exact hbefore.symm.trans heq ▸ rfl
  · next heq => cases hbefore.symm.trans heq

theorem transform_of_ok (h : Ends before e) {rewritten : Expr}
    (hbefore : before e = .ok rewritten) : transform before after e h =
      (rewritten.descend fun o ho => transform before after o (h.awaited hbefore ho)) >>=
        after := by
  rw [transform]
  split
  · next heq => cases hbefore.symm.trans heq
  · next heq =>
      cases hbefore.symm.trans heq
      rfl

/-- With nothing to do afterwards. -/
theorem transform_eq_descend (h : Ends before e) {rewritten : Expr}
    (hbefore : before e = .ok rewritten) : transform before .ok e h =
      rewritten.descend fun o ho => transform before .ok o (h.awaited hbefore ho) :=
  (transform_of_ok h hbefore).trans (bind_pure _)

/-- Each of some nodes is rewritten to one that is not among them, whose
operands are among its own or literals. All other nodes are left alone. -/
structure Clears (P : Expr → Bool) (before : Expr → Result Expr) : Prop where
  keeps : ∀ e, P e = false → before e = .ok e
  leaves : ∀ e rewritten, P e = true → before e = .ok rewritten → P rewritten = false
  below : ∀ e rewritten, P e = true → before e = .ok rewritten →
    ∀ o ∈ rewritten.operands, o ∈ e.operands ∨ ∃ value, o = .literal value

/-- The operands of what a node is rewritten to are among its own or
literals. -/
theorem Clears.operand (h : Clears P before) {rewritten o : Expr}
    (hbefore : before e = .ok rewritten) (ho : o ∈ rewritten.operands) :
    o ∈ e.operands ∨ ∃ value, o = .literal value := by
  cases he : P e with
  | true => exact h.below e rewritten he hbefore o ho
  | false =>
      cases (h.keeps e he).symm.trans hbefore
      exact .inl ho

/-- Rewriting ends on every expression if it does on every literal. -/
theorem Clears.ends (h : Clears P before) (hliteral : ∀ value, Ends before (.literal value))
    (e : Expr) : Ends before e := by
  induction e using operands_induction with
  | step e ih =>
      refine ends_of_below fun rewritten hbefore o ho => ?_
      rcases h.operand hbefore ho with ho | ⟨value, rfl⟩
      · exact ih o ho
      · exact hliteral value

-- =========================================================== instances

/-- A traversal is a rewriting of nodes if it does what that does to each
node and then goes on to the operands. -/
theorem transforms_of {F : Expr → Result Expr} (step : ∀ e, F e = before e >>= descendWith F)
    (below : ∀ e rewritten, before e = .ok rewritten →
      ∀ o ∈ rewritten.operands, o ∈ e.operands ∨ ∃ value, o = .literal value)
    (hliteral : ∀ value, before (.literal value) = .ok (.literal value)) (e : Expr) :
    Transforms before .ok e (F e) := by
  have hstep (e : Expr) (h : ∀ rewritten, before e = .ok rewritten →
      ∀ o ∈ rewritten.operands, Transforms before .ok o (F o)) : Transforms before .ok e (F e) := by
    have hends : Ends before e :=
      ends_of_below fun rewritten hbefore o ho => (h rewritten hbefore o ho).1
    refine ⟨hends, ?_⟩
    rw [step]
    cases hbefore : before e with
    | error failure => exact transform_of_error hends hbefore
    | ok rewritten =>
        rw [transform_eq_descend hends hbefore]
        congr 1
        funext o ho
        exact (h rewritten hbefore o ho).2
  have hliterals (value : Value) : Transforms before .ok (.literal value) (F (.literal value)) := by
    refine hstep _ fun rewritten hbefore o ho => ?_
    cases (hliteral value).symm.trans hbefore
    cases ho
  induction e using operands_induction with
  | step e ih =>
      refine hstep e fun rewritten hbefore o ho => ?_
      rcases below e rewritten hbefore o ho with ho | ⟨value, rfl⟩
      · exact ih o ho
      · exact hliterals value

/-- What is left out where a subquery stands. -/
def stripNode : Expr → Result Expr
  | .exists _ => .ok (.literal (.boolean true))
  | .inQuery e _ => .ok (.inList e [])
  | e => .ok e

theorem clears_stripNode : Clears isSubquery stripNode where
  keeps e h := by
    cases e <;> first | rfl | cases h
  leaves e rewritten h hstrip := by
    cases e <;> cases h <;> cases hstrip <;> rfl
  below e rewritten h hstrip o ho := by
    cases e <;> cases h <;> cases hstrip
    · cases ho
    · exact .inl ho

theorem withoutSubqueries_step (e : Expr) :
    .ok e.withoutSubqueries =
      stripNode e >>= descendWith fun e => (.ok e.withoutSubqueries : Result Expr) := by
  have hlist (es : List Expr) : es.mapM (fun e => (.ok e.withoutSubqueries : Result Expr)) =
      .ok (withoutSubqueriesList es) := by
    rw [withoutSubqueriesList_eq, Result.mapM_eq_ok, List.forall₂_map_right_iff]
    exact List.forall₂_same.mpr fun _ _ => rfl
  cases e with
  | call name arguments =>
      rw [stripNode, Result.ok_bind, descendWith_call, hlist arguments]
      · rfl
      · nofun
      · nofun
  | inList e items =>
      rw [stripNode, Result.ok_bind, descendWith_inList, Result.ok_bind, hlist items]
      · rfl
      · nofun
      · nofun
  | _ => rfl

theorem transforms_stripNode (e : Expr) :
    Transforms stripNode .ok e (.ok e.withoutSubqueries) :=
  transforms_of withoutSubqueries_step (fun _ _ h _ ho => clears_stripNode.operand h ho)
    (fun _ => rfl) e

end Expr

-- ============================================================ resolving

namespace Scope

variable {s : Scope}

end Scope

-- ============================================================== summary

namespace Transforming

open DialectDb.Expr

/-- `left IN (SELECT item)`. -/
def membership (left item : Expr) : Expr :=
  .inQuery left
    { ctes := [], distinct := false, columns := [⟨item, none⟩], source := none, joins := [],
      predicate := none, groupBy := [], having := none, unions := [], orderBy := [],
      offset := none, limit := none, queryHints := [] }

def one : Expr := .literal (.integer 1)

end Transforming

end DialectDb
