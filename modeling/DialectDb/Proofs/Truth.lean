/-
The truth of conditions: true, false, or NULL for unknown. A condition
that decides has one of the three, and only what is true passes. One
that fails, or whose value is no truth value, does not decide.
-/
import DialectDb.Formula
import DialectDb.Proofs.Result

namespace DialectDb

namespace Result

/-- A truth value, or NULL. -/
def HasTruth (r : Result Value) : Prop :=
  r = .ok .null ∨ ∃ b, r = .ok (.boolean b)

/-- The truth value, if it is known. -/
def truth? : Result Value → Option Bool
  | .ok (.boolean b) => some b
  | _ => none

/-- What is negated has a truth value where it had one before, the other
one. -/
theorem HasTruth.not {r : Result Value} (h : HasTruth r) :
    HasTruth (r >>= UnaryOp.not.apply) ∧
      (truth? (r >>= UnaryOp.not.apply) = some true ↔ truth? r = some false) := by
  obtain rfl | ⟨b, rfl⟩ := h
  · exact ⟨.inl rfl, by decide⟩
  · refine ⟨.inr ⟨!b, rfl⟩, ?_⟩
    cases b <;> decide

/-- Of a truth value or NULL, a test for NULL is always known. -/
theorem HasTruth.isNull {r : Result Value} (h : HasTruth r) :
    HasTruth (r >>= UnaryOp.isNull.apply) ∧
      (truth? (r >>= UnaryOp.isNull.apply) = some true ↔ truth? r = none) := by
  obtain rfl | ⟨b, rfl⟩ := h
  · exact ⟨.inr ⟨true, rfl⟩, by decide⟩
  · refine ⟨.inr ⟨false, rfl⟩, ?_⟩
    cases b <;> decide

end Result

namespace Formula

/-- Whether a condition is true of a row. -/
def isTrue (e : Formula) (row : Row) : Bool :=
  match e.eval row with
  | .ok (.boolean true) => true
  | _ => false

/-- A condition that has a truth value on a row, or NULL. -/
def Decides (e : Formula) (row : Row) : Prop :=
  e.eval row = .ok .null ∨ ∃ b, e.eval row = .ok (.boolean b)

theorem decides_of_isTrue {e : Formula} {row : Row} (h : e.isTrue row = true) : e.Decides row := by
  unfold isTrue at h
  split at h
  · next heval => exact .inr ⟨true, heval⟩
  · cases h

theorem holds_some_eq_ok {e : Formula} {row : Row} {b : Bool} :
    holds (some e) row = .ok b ↔ e.Decides row ∧ b = e.isTrue row := by
  unfold holds Decides isTrue
  dsimp only
  rcases e.eval row with _ | (_ | b' | _ | _ | _)
  all_goals simp [eq_comm]
  cases b' <;> simp

theorem isTrue_eq (e : Formula) (row : Row) :
    e.isTrue row = decide (Result.truth? (e.eval row) = some true) := by
  unfold isTrue Result.truth?
  rcases e.eval row with _ | (_ | b | _ | _ | _)
  all_goals try rfl
  cases b <;> rfl

/-- A row is judged iff its value for the condition is a truth value or
NULL, and passes iff it is true. -/
theorem holds_bind_eq_ok {x : Result Formula} {row : Row} {keep : Bool} :
    (do holds (some (← x)) row) = .ok keep ↔
      Result.HasTruth (do (← x).eval row) ∧
        keep = decide (Result.truth? (do (← x).eval row) = some true) := by
  cases x with
  | error e => simp [Result.HasTruth]
  | ok e =>
      rw [Result.ok_bind, Result.ok_bind, holds_some_eq_ok, isTrue_eq]
      exact Iff.rfl

end Formula

end DialectDb
