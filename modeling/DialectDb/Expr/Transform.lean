/-
Rewriting expressions node by node. A node is rewritten before its
operands are, so that the operands that are visited are those of what it
was rewritten to, and once more with the rewritten operands in place.
Queries below a node are left to the functions that rewrite nodes, as
`nodes` leaves them out.

Nothing keeps a node from being rewritten to one with operands that are
as large as itself, and so on for ever. So rewriting is a function of the
expressions on which it ends; on these it does so without the help of a
failure that would stop it.
-/
import DialectDb.Expr.Nodes
import DialectDb.Error

namespace DialectDb.Expr

/-- A node with its operands replaced, from left to right. -/
def descend : (e : Expr) → (∀ o ∈ e.operands, Result Expr) → Result Expr
  | .call name arguments, f => do
    return .call name (← arguments.attach.mapM fun o => f o.1 o.2)
  | .unary op e, f => do return .unary op (← f e List.mem_cons_self)
  | .binary op l r, f => do
    let left ← f l List.mem_cons_self
    return .binary op left (← f r (List.mem_cons_of_mem l List.mem_cons_self))
  | .inList e items, f => do
    let operand ← f e List.mem_cons_self
    return .inList operand (← items.attach.mapM fun o => f o.1 (List.mem_cons_of_mem e o.2))
  | .inQuery e q, f => do return .inQuery (← f e List.mem_cons_self) q
  | e, _ => .ok e

/-- An expression that is rewritten because another is: an operand of
what that one's node is rewritten to. -/
def Awaited (before : Expr → Result Expr) (o e : Expr) : Prop :=
  ∃ rewritten, before e = .ok rewritten ∧ o ∈ rewritten.operands

/-- Rewriting an expression ends: no expression waits for another, and
that one for another, for ever. -/
def Ends (before : Expr → Result Expr) (e : Expr) : Prop :=
  Acc (Awaited before) e

theorem Ends.awaited {before : Expr → Result Expr} {o e rewritten : Expr} (h : Ends before e)
    (hbefore : before e = .ok rewritten) (ho : o ∈ rewritten.operands) : Ends before o :=
  h.inv ⟨rewritten, hbefore, ho⟩

/-- The expressions on which rewriting ends, in the order in which it
goes on from one to the next. -/
instance awaitedRelation (before : Expr → Result Expr) :
    WellFoundedRelation {e // Ends before e} where
  rel o e := Awaited before o.1 e.1
  wf := ⟨fun ⟨e, h⟩ => by
    induction h with
    | intro e h ih => exact ⟨_, fun ⟨o, ho⟩ hawaited => ih o hawaited⟩⟩

/-- An expression rewritten node by node. -/
def transform (before after : Expr → Result Expr) (e : Expr) (h : Ends before e) :
    Result Expr :=
  match hbefore : before e with
  | .error failure => .error failure
  | .ok rewritten => do
    let replaced ← rewritten.descend fun o ho =>
      transform before after o (h.awaited hbefore ho)
    after replaced
termination_by (⟨e, h⟩ : {e // Ends before e})
decreasing_by exact ⟨rewritten, hbefore, ho⟩

end DialectDb.Expr
