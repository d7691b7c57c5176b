/-
What no value of a row can bring about: a failure for a name that is
unknown or ambiguous, or for a number of columns. Such failures come
from resolving names and from comparing column counts. Values are worked
on behind that, in formulas, in the rows of a result and in groups of
them, and fail in other ways only.
-/
import DialectDb.Proofs.Failures
import DialectDb.Proofs.JoinedRows

namespace DialectDb

/-- A computation that does not fail for a name or a number of
columns. -/
def NameSafe {α : Type} (r : Result α) : Prop :=
  ∀ fault, r ≠ .error (.schema fault)

namespace NameSafe

variable {α β : Type}

@[simp] theorem ok (a : α) : NameSafe (.ok a) := by
  simp [NameSafe]

@[simp] theorem pure (a : α) : NameSafe (Pure.pure a : Result α) := ok a

@[simp] theorem invalid (cause : InvalidOperation) :
    NameSafe (.error (.invalid cause) : Result α) := by
  simp [NameSafe]

@[simp] theorem typeMismatch (mismatch : TypeMismatch) :
    NameSafe (.error (.typeMismatch mismatch) : Result α) := by
  simp [NameSafe]

@[simp] theorem constraint (violation : ConstraintViolation) :
    NameSafe (.error (.constraint violation) : Result α) := by
  simp [NameSafe]

@[simp] theorem binding (fault : BindingFault) :
    NameSafe (.error (.binding fault) : Result α) := by
  simp [NameSafe]

/-- What a failure is, not what would have been the result, decides. -/
theorem of_error {x : Result α} {e : Error} (hx : NameSafe x) (h : x = .error e) :
    NameSafe (.error e : Result β) := by
  intro fault hfault
  cases hfault
  exact hx fault h

theorem bind {x : Result α} {f : α → Result β} (hx : NameSafe x)
    (hf : ∀ a, x = .ok a → NameSafe (f a)) : NameSafe (x >>= f) := by
  cases x with
  | error e => exact hx.of_error rfl
  | ok a => exact hf a rfl

theorem ite {p : Prop} [Decidable p] {x y : Result α} (hx : NameSafe x) (hy : NameSafe y) :
    NameSafe (if p then x else y) := by
  split
  · exact hx
  · exact hy

theorem mapM {f : α → Result β} {items : List α} (h : ∀ a ∈ items, NameSafe (f a)) :
    NameSafe (items.mapM f) := by
  induction items with
  | nil => exact ok []
  | cons a rest ih =>
      rw [List.mapM_cons]
      refine bind (h a List.mem_cons_self) fun b _ => ?_
      exact bind (ih fun c hc => h c (List.mem_cons_of_mem a hc)) fun bs _ => ok (b :: bs)

end NameSafe

theorem nameSafe_iff {α : Type} {r : Result α} :
    NameSafe r ↔ Yields Error.NoName (fun _ => True) r := by
  constructor
  · intro h
    refine ⟨fun _ _ => trivial, fun e he => ?_⟩
    unfold Error.NoName
    split
    · exact h _ he
    · trivial
  · exact fun h fault hfault => h.of_error _ hfault

/-- What fails only for what values are fails for no name. -/
theorem OnValues.nameSafe {α : Type} {r : Result α} (h : OnValues r) : NameSafe r :=
  fun _ hfault => h.of_error _ hfault

-- ============================================================ formulas

namespace Formula

variable (row : Row)

mutual

/-- A formula has no names left that could be wrong. -/
theorem nameSafe_eval : ∀ e : Formula, NameSafe (e.eval row)
  | .const _ => .ok _
  | .column index => by
    unfold eval
    split <;> simp
  | .unary op e => .bind (nameSafe_eval e) fun _ _ => (op.onRow_apply _).onValues.nameSafe
  | .binary op l r =>
    .bind (nameSafe_eval l) fun _ _ => .bind (nameSafe_eval r) fun _ _ =>
      (op.onRow_apply _ _).onValues.nameSafe
  | .inList e items =>
    .bind (nameSafe_eval e) fun _ _ => .ite (.ok _) (nameSafe_evalMembership _ _ items)
  | .likePattern e _ =>
    .bind (nameSafe_eval e) fun _ _ => (Value.onRow_likePattern _ _).onValues.nameSafe
  | .call function arguments =>
    .bind (nameSafe_evalList arguments) fun _ _ => (function.onRow_apply _).onValues.nameSafe
termination_by structural e => e

theorem nameSafe_evalList : ∀ es : List Formula, NameSafe (evalList row es)
  | [] => .ok _
  | e :: es => .bind (nameSafe_eval e) fun _ _ => .bind (nameSafe_evalList es) fun _ _ => .ok _
termination_by structural es => es

theorem nameSafe_evalMembership (value otherwise : Value) :
    ∀ items : List Formula, NameSafe (evalMembership row value otherwise items)
  | [] => .ok _
  | e :: es => by
    refine .bind (nameSafe_eval e) fun item _ => ?_
    refine .bind (Value.onRow_compare _ _).onValues.nameSafe fun o _ => ?_
    split
    · exact .ok _
    · exact nameSafe_evalMembership value otherwise es
    · exact nameSafe_evalMembership value .null es
termination_by structural items => items

end

theorem nameSafe_holds (condition : Option Formula) : NameSafe (holds condition row) := by
  cases condition with
  | none => exact .ok _
  | some e =>
      refine .bind (nameSafe_eval row e) fun value _ => ?_
      split <;> simp

theorem length_evalList {es : List Formula} {values : List Value}
    (h : evalList row es = .ok values) : values.length = es.length := by
  induction es generalizing values with
  | nil =>
      cases h
      rfl
  | cons e es ih =>
      obtain ⟨value, -, h⟩ := Result.bind_eq_ok.mp h
      obtain ⟨rest, hrest, h⟩ := Result.bind_eq_ok.mp h
      cases h
      rw [List.length_cons, List.length_cons, ih hrest]

end Formula

-- ================================================================ rows

namespace Rows

/-- No failure in the place of a row is one for a name. -/
def NameSafe (rows : Rows) : Prop :=
  ∀ row ∈ rows.toList, DialectDb.NameSafe row

theorem nameSafe_iff {rows : Rows} : rows.NameSafe ↔ rows.FailOnly Error.NoName := by
  rw [failOnly_iff]
  exact forall₂_congr fun row _ => DialectDb.nameSafe_iff

theorem nameSafe_each {α : Type} {row : α → Result Row} (h : ∀ a, DialectDb.NameSafe (row a))
    (items : List α) : (each row items).NameSafe :=
  nameSafe_iff.mpr (failOnly_each fun a _ => DialectDb.nameSafe_iff.mp (h a))

theorem nameSafe_ofList (rows : List Row) : (ofList rows).NameSafe :=
  nameSafe_each .ok rows

variable {rows : Rows}

theorem NameSafe.filter (h : rows.NameSafe) (condition : Formula) :
    (rows.filter condition).NameSafe :=
  nameSafe_iff.mpr ((nameSafe_iff.mp h).filter fun row _ =>
    DialectDb.nameSafe_iff.mp (Formula.nameSafe_holds row (some condition)))

theorem NameSafe.project (h : rows.NameSafe) (formulas : List Formula) :
    (rows.project formulas).NameSafe :=
  nameSafe_iff.mpr ((nameSafe_iff.mp h).project fun row _ =>
    DialectDb.nameSafe_iff.mp (Formula.nameSafe_evalList row formulas))

theorem NameSafe.drop (h : rows.NameSafe) (count : Nat) : (rows.drop count).NameSafe :=
  nameSafe_iff.mpr ((nameSafe_iff.mp h).drop count)

theorem NameSafe.take (h : rows.NameSafe) (count : Nat) : (rows.take count).NameSafe :=
  nameSafe_iff.mpr ((nameSafe_iff.mp h).take count)

theorem NameSafe.collect (h : rows.NameSafe) : DialectDb.NameSafe rows.collect :=
  DialectDb.nameSafe_iff.mpr (nameSafe_iff.mp h).collect

theorem NameSafe.first? (h : rows.NameSafe) {row : Result Row} (hfirst : rows.first? = some row) :
    DialectDb.NameSafe row :=
  DialectDb.nameSafe_iff.mpr ((nameSafe_iff.mp h).first? hfirst)

end Rows

-- ==================================================== joins and groups

/-- The parts of a result are safe: a failure of it, and the rows that it
has. -/
theorem Rows.nameSafe_of_yields {r : Result Rows}
    (h : Yields Error.NoName (Rows.FailOnly Error.NoName) r) :
    DialectDb.NameSafe r ∧ ∀ rows, r = .ok rows → rows.NameSafe :=
  ⟨DialectDb.nameSafe_iff.mpr h.forget, fun rows hrows =>
    nameSafe_iff.mpr (h.of_ok rows hrows)⟩

theorem Joining.nameSafe_passes (j : Joining) (row : Row) : NameSafe (j.passes row) := by
  unfold passes
  split
  · exact .ok true
  · refine .bind (Formula.nameSafe_eval row _) fun value _ => ?_
    split <;> simp

theorem Joining.nameSafe_rows (j : Joining) (inner : List Row) {outer : Rows}
    (h : outer.NameSafe) :
    NameSafe (j.rows inner outer) ∧ ∀ rows, j.rows inner outer = .ok rows → rows.NameSafe :=
  Rows.nameSafe_of_yields (rows_yields (Rows.nameSafe_iff.mp h) fun _ _ _ _ =>
    nameSafe_iff.mp (j.nameSafe_passes _))

theorem Grouping.nameSafe_rows (g : Grouping) {input : Rows} (h : input.NameSafe) :
    NameSafe (g.rows input) ∧ ∀ rows, g.rows input = .ok rows → rows.NameSafe :=
  Rows.nameSafe_of_yields (rows_yields (fun _ he => he.noName) (Rows.nameSafe_iff.mp h)
    (fun row _ => nameSafe_iff.mp (Formula.nameSafe_evalList row _))
    fun row _ _ _ => nameSafe_iff.mp (Formula.nameSafe_eval row _))

end DialectDb
