/-
Actions: what is done on a state that outlives it, such as the rows of a
table, a store or a server. An action gives a result or fails, and in
either case there is a state after it. So that a failure leaves the
state as it was is nothing that the type of an action promises: it has
to be brought about, and `Store.mutate` is where it is.
-/
import DialectDb.Error

namespace DialectDb

/-- What is done on a state. It gives a result or fails, and leaves a
state behind in either case. -/
abbrev Action (σ α : Type) := ExceptT Error (StateM σ) α

namespace Action

variable {σ τ α β : Type}

/-- The result of an action on a state, and the state that it leaves. -/
def perform (x : Action σ α) (s : σ) : Result α × σ := x s

/-- An action on a part of a state, which is put back in its place
afterwards. -/
def onPart (part : σ → τ) (replace : σ → τ → σ) (x : Action τ α) : Action σ α := fun s =>
  let (result, after) := x.perform (part s)
  (result, replace s after)

-- ============================================================== results

@[simp] theorem perform_pure (a : α) (s : σ) :
    (pure a : Action σ α).perform s = (.ok a, s) := rfl

@[simp] theorem perform_throw (e : Error) (s : σ) :
    (throw e : Action σ α).perform s = (.error e, s) := rfl

@[simp] theorem perform_lift (r : Result α) (s : σ) :
    (liftM r : Action σ α).perform s = (r, s) := rfl

@[simp] theorem perform_get (s : σ) : (get : Action σ σ).perform s = (.ok s, s) := rfl

@[simp] theorem perform_set (t s : σ) :
    (set t : Action σ PUnit).perform s = (.ok ⟨⟩, t) := rfl

@[simp] theorem perform_modify (f : σ → σ) (s : σ) :
    (modify f : Action σ PUnit).perform s = (.ok ⟨⟩, f s) := rfl

/-- Of two actions the second is done only if the first succeeds, on the
state that it leaves. -/
theorem perform_bind (x : Action σ α) (f : α → Action σ β) (s : σ) :
    (x >>= f).perform s =
      match x.perform s with
      | (.ok a, after) => (f a).perform after
      | (.error e, after) => (.error e, after) := by
  show ExceptT.bind x f s = _
  unfold perform
  simp only [ExceptT.bind, ExceptT.mk, ExceptT.bindCont, bind, StateT.bind]
  rcases x s with ⟨_ | _, _⟩ <;> rfl

end Action

end DialectDb
