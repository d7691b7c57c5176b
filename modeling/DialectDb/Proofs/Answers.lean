/-
Queries as statements of their own: what one gives when it is executed
and its rows are read to the end. Without WITH that is its answer over
the store, and without UNION and row limits the answer is that of its
core.
-/
import DialectDb.Execution
import DialectDb.Proofs.Action
import DialectDb.Proofs.Enclosing
import DialectDb.Proofs.Rows

namespace DialectDb.Select

open DialectDb.Action

/-- The columns and all rows of a query that is executed as a
statement. -/
def readAll (q : Select) (version : DialectVersion) (store : Store) :
    Result (List String × List Row) := do
  (← (((Statement.select q).execute version).perform store).1).table

theorem readAll_eq (q : Select) (version : DialectVersion) (store : Store) :
    q.readAll version store = do
      let answer ← q.evaluate version store
      return (answer.columns, ← answer.rows.collect) := by
  unfold readAll Statement.execute
  rw [perform_get_bind, perform_lift_bind]
  cases q.evaluate version store <;> rfl

theorem evaluate_eq_answer {q : Select} (hctes : q.ctes = []) (version : DialectVersion)
    (store : Store) : q.evaluate version store = q.answer { store } := by
  cases q
  cases hctes
  rfl

/-- A query of one core without row limits is that core. -/
theorem answer_single {q : Select} {context : Context} (hctes : q.ctes = [])
    (hunions : q.unions = []) (hoffset : q.offset = none) (hlimit : q.limit = none) :
    q.answer context = q.coreAnswer context (Expr.condition? context q.predicate) q.orderBy := by
  rw [answer_eq]
  simp [assemble, hctes, hunions, hoffset, hlimit, rowCount, UnionBranch.answers, Rows.drop_zero]

end DialectDb.Select
