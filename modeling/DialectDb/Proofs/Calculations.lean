/-
Calculations with integers. What they come to is defined in integers
without bounds (`Calculation.exact`); a formula for one gives exactly
that, or fails, and it fails iff a divisor in it is zero or a part of it
has no place in 64 bits (`Calculation.eval_exact`).

An operation succeeds with the exact result or fails for one of two
causes (`Settles`). That is what each of them does on two integers, and
what carries the induction over a calculation: the first part without a
value is where it fails.
-/
import Mathlib.Algebra.Group.Int.Defs
import DialectDb.Formula
import DialectDb.Proofs.Result

namespace DialectDb

-- ======================================================== calculations

/-- What is done with one integer. -/
inductive Adjustment
  | identity
  | negate
  | absolute

/-- What is done with two integers. -/
inductive Combination
  | add
  | subtract
  | multiply
  | divide
  | remainder
deriving DecidableEq

/-- A calculation with integers and with integers in the columns of a
row. -/
inductive Calculation
  | constant (i : Int64)
  | column (index : Nat)
  | adjust (change : Adjustment) (operand : Calculation)
  | combine (op : Combination) (left right : Calculation)

/-- Whether an integer has a place in 64 bits. -/
def InWord (i : Int) : Prop :=
  -2 ^ 63 ≤ i ∧ i < 2 ^ 63
deriving Decidable

def Adjustment.exact : Adjustment → Int → Int
  | identity, i => i
  | negate, i => -i
  | absolute, i => i.natAbs

/-- Quotients are truncated toward zero, and a remainder has the sign of
its dividend. -/
def Combination.exact : Combination → Int → Int → Int
  | add, a, b => a + b
  | subtract, a, b => a - b
  | multiply, a, b => a * b
  | divide, a, b => a.tdiv b
  | remainder, a, b => a.tmod b

/-- What a combination asks of two integers, its result aside. The
remainder of the least integer by -1 counts as too large, though it is
0. -/
def Combination.Admits : Combination → Int → Int → Prop
  | divide, _, b => b ≠ 0
  | remainder, a, b => b ≠ 0 ∧ ¬(a = -2 ^ 63 ∧ b = -1)
  | _, _, _ => True

instance : ∀ (op : Combination) (a b : Int), Decidable (op.Admits a b)
  | .divide, _, b => inferInstanceAs (Decidable (b ≠ 0))
  | .remainder, a, b => inferInstanceAs (Decidable (b ≠ 0 ∧ ¬(a = -2 ^ 63 ∧ b = -1)))
  | .add, _, _ | .subtract, _, _ | .multiply, _, _ => inferInstanceAs (Decidable True)

def Adjustment.formula : Adjustment → Formula → Formula
  | identity, e => .unary .identity e
  | negate, e => .unary .negate e
  | absolute, e => .call .abs [e]

def Combination.op : Combination → BinaryOp
  | add => .add
  | subtract => .subtract
  | multiply => .multiply
  | divide => .divide
  | remainder => .remainder

namespace Calculation

variable {row : Row}

/-- The formula that is evaluated. -/
def formula : Calculation → Formula
  | constant i => .const (.integer i)
  | column index => .column index
  | adjust change e => change.formula e.formula
  | combine op l r => .binary op.op l.formula r.formula

/-- All columns of a calculation hold integers. -/
def OnIntegers (row : Row) : Calculation → Prop
  | constant _ => True
  | column index => ∃ i, row[index]? = some (.integer i)
  | adjust _ e => e.OnIntegers row
  | combine _ l r => l.OnIntegers row ∧ r.OnIntegers row

/-- The integer in a column. -/
def read (row : Row) (index : Nat) : Int :=
  match row[index]? with
  | some (.integer i) => i.toInt
  | _ => 0

/-- What a calculation comes to, in integers without bounds. -/
def exact (row : Row) : Calculation → Int
  | constant i => i.toInt
  | column index => read row index
  | adjust change e => change.exact (e.exact row)
  | combine op l r => op.exact (l.exact row) (r.exact row)

/-- A calculation and all calculations inside it. -/
def parts : Calculation → List Calculation
  | constant i => [constant i]
  | column index => [column index]
  | adjust change e => adjust change e :: e.parts
  | combine op l r => combine op l r :: (l.parts ++ r.parts)

/-- Whether the last step of a calculation can be done: it does not
divide by zero, and its result has a place in 64 bits. -/
def Ends (row : Row) : Calculation → Prop
  | constant _ | column _ => True
  | adjust change e => InWord (change.exact (e.exact row))
  | combine op l r =>
    InWord (op.exact (l.exact row) (r.exact row)) ∧ op.Admits (l.exact row) (r.exact row)

instance (row : Row) : ∀ e : Calculation, Decidable (e.Ends row)
  | constant _ | column _ => inferInstanceAs (Decidable True)
  | adjust _ _ => inferInstanceAs (Decidable (InWord _))
  | combine _ _ _ => inferInstanceAs (Decidable (_ ∧ _))

/-- Every part can be calculated. -/
def Fits (row : Row) (e : Calculation) : Prop :=
  ∀ part ∈ e.parts, part.Ends row

instance (row : Row) (e : Calculation) : Decidable (e.Fits row) :=
  inferInstanceAs (Decidable (∀ part ∈ e.parts, part.Ends row))

end Calculation

-- ============================================================ outcomes

/-- A result that is an integer if it can be had, and else a failure for
a division by zero or for an integer that is too large. -/
def Settles (r : Result Value) (can : Prop) (i : Int) : Prop :=
  (can ∧ ∃ j : Int64, r = .ok (.integer j) ∧ j.toInt = i) ∨
    (¬can ∧ (r = .error (.invalid .integerOverflow) ∨ r = .error (.invalid .divisionByZero)))

variable {r : Result Value} {can : Prop} {i : Int}

theorem inWord_toInt (i : Int64) : InWord i.toInt := by
  have hlow := Int64.minValue_le_toInt i
  have hhigh := Int64.toInt_le i
  have hmin : Int64.minValue.toInt = -2 ^ 63 := rfl
  have hmax : Int64.maxValue.toInt = 2 ^ 63 - 1 := rfl
  exact ⟨by omega, by omega⟩

theorem settles_integer {j : Int64} : Settles (.ok (.integer j)) (InWord j.toInt) j.toInt :=
  .inl ⟨inWord_toInt j, j, rfl, rfl⟩

theorem settles_ofInt (i : Int) : Settles (Value.ofInt i) (InWord i) i := by
  have hmin : Int64.minValue.toInt = -2 ^ 63 := rfl
  have hmax : Int64.maxValue.toInt = 2 ^ 63 - 1 := rfl
  unfold Value.ofInt
  split
  · next h => exact .inl ⟨⟨by omega, by omega⟩, _, rfl, Int64.toInt_ofInt_of_le (by omega) (by omega)⟩
  · next h => exact .inr ⟨fun hword => h ⟨by have := hword.1; omega, by have := hword.2; omega⟩, .inl rfl⟩

theorem Settles.congr {can' : Prop} (h : Settles r can i) (hcan : can ↔ can') :
    Settles r can' i := by
  unfold Settles
  rw [← hcan]
  exact h

/-- What follows a result needs the result, and then goes by the integer
that it is. -/
theorem Settles.bind {f : Value → Result Value} {can' : Prop} {k : Int} (h : Settles r can i)
    (hf : ∀ j : Int64, j.toInt = i → can → Settles (f (.integer j)) can' k) :
    Settles (r >>= f) (can ∧ can') k := by
  obtain ⟨hcan, j, rfl, hj⟩ | ⟨hcannot, rfl | rfl⟩ := h
  · exact (hf j hj hcan).congr ⟨fun h => ⟨hcan, h⟩, And.right⟩
  · exact .inr ⟨fun h => hcannot h.1, .inl rfl⟩
  · exact .inr ⟨fun h => hcannot h.1, .inr rfl⟩

-- ========================================================== operations

/-- Quotients of 64-bit integers have a place in 64 bits, but for the one
of the least integer by -1. -/
theorem inWord_tdiv {a b : Int} (ha : InWord a) (hb : b ≠ 0) :
    InWord (a.tdiv b) ↔ ¬(a = -2 ^ 63 ∧ b = -1) := by
  obtain ⟨hlow, hhigh⟩ := ha
  constructor
  · rintro h ⟨rfl, rfl⟩
    exact absurd h (by decide)
  · intro hnot
    have hbound := Int.natAbs_tdiv_le_natAbs a b
    refine ⟨by omega, ?_⟩
    by_contra hlarge
    -- only a quotient as large as the greatest magnitude is left
    have hleast : a = -2 ^ 63 := by omega
    have hdividend : a.natAbs = 2 ^ 63 := by omega
    have hquotient : a.natAbs / b.natAbs = 2 ^ 63 := (Int.natAbs_tdiv a b).symm.trans (by omega)
    have hone : b.natAbs = 1 := by
      rw [hdividend] at hquotient
      have hmul := Nat.div_mul_le_self (2 ^ 63) b.natAbs
      rw [hquotient] at hmul
      omega
    rcases Int.natAbs_eq b with hsign | hsign
    · have hself : a.tdiv b = a := by
        rw [hsign, hone]
        exact Int.tdiv_one a
      omega
    · exact hnot ⟨hleast, by omega⟩

theorem settles_quotient (a b : Int64) :
    Settles (Value.quotient a b) (InWord (a.toInt.tdiv b.toInt) ∧ b.toInt ≠ 0)
      (a.toInt.tdiv b.toInt) := by
  have hzero : b = 0 ↔ b.toInt = 0 := Int64.toInt_inj.symm
  unfold Value.quotient
  split
  · next h => exact .inr ⟨fun hcan => hcan.2 (hzero.mp h), .inr rfl⟩
  · next h => exact (settles_ofInt _).congr ⟨fun hword => ⟨hword, mt hzero.mpr h⟩, And.left⟩

theorem settles_remainder (a b : Int64) :
    Settles (Value.remainder a b)
      (InWord (a.toInt.tmod b.toInt) ∧ b.toInt ≠ 0 ∧ ¬(a.toInt = -2 ^ 63 ∧ b.toInt = -1))
      (a.toInt.tmod b.toInt) := by
  have hzero : b = 0 ↔ b.toInt = 0 := Int64.toInt_inj.symm
  unfold Value.remainder
  split
  · next h => exact .inr ⟨fun hcan => hcan.2.1 (hzero.mp h), .inr rfl⟩
  · next h =>
      have hne := mt hzero.mpr h
      refine ((settles_ofInt _).bind fun _ _ _ => settles_ofInt _).congr ?_
      rw [inWord_tdiv (inWord_toInt a) hne]
      exact ⟨fun hcan => ⟨hcan.2, hne, hcan.1⟩, fun hcan => ⟨hcan.2.2, hcan.1⟩⟩

theorem Adjustment.settles (change : Adjustment) (e : Formula) {row : Row}
    (h : Settles (e.eval row) can i) :
    Settles ((change.formula e).eval row) (can ∧ InWord (change.exact i)) (change.exact i) := by
  cases change with
  | identity => exact h.bind fun j hj _ => hj ▸ settles_integer
  | negate => exact h.bind fun j hj _ => hj ▸ settles_ofInt _
  | absolute =>
      have heval : ((Adjustment.absolute.formula e).eval row) =
          e.eval row >>= fun value => value.absolute := by
        show (Formula.evalList row [e] >>= Function.apply .abs) = _
        unfold Formula.evalList
        cases e.eval row <;> rfl
      rw [heval]
      refine h.bind fun j hj _ => ?_
      rw [← hj]
      exact settles_ofInt _

/-- An operation on two integers gives its exact result or fails. -/
theorem Combination.settles (op : Combination) (a b : Int64) :
    Settles (op.op.apply (.integer a) (.integer b))
      (InWord (op.exact a.toInt b.toInt) ∧ op.Admits a.toInt b.toInt)
      (op.exact a.toInt b.toInt) := by
  cases op with
  | add | subtract | multiply => exact (settles_ofInt _).congr (and_iff_left trivial).symm
  | divide => exact settles_quotient a b
  | remainder => exact settles_remainder a b

-- ======================================================== calculations

namespace Calculation

variable {row : Row}

theorem fits_adjust {change : Adjustment} {e : Calculation} :
    (adjust change e).Fits row ↔ e.Fits row ∧ InWord (change.exact (e.exact row)) := by
  unfold Fits
  rw [parts, List.forall_mem_cons, and_comm]
  exact Iff.rfl

theorem fits_combine {op : Combination} {l r : Calculation} :
    (combine op l r).Fits row ↔ l.Fits row ∧ r.Fits row ∧
      InWord (op.exact (l.exact row) (r.exact row)) ∧
        op.Admits (l.exact row) (r.exact row) := by
  unfold Fits
  rw [parts, List.forall_mem_cons, List.forall_mem_append, and_comm, and_assoc]
  exact Iff.rfl

theorem settles (e : Calculation) (h : e.OnIntegers row) :
    Settles (e.formula.eval row) (e.Fits row) (e.exact row) := by
  induction e with
  | constant j =>
      exact settles_integer.congr (iff_of_true (inWord_toInt j) (by simp [Fits, parts, Ends]))
  | column index =>
      obtain ⟨j, hj⟩ := h
      have hexact : (column index).exact row = j.toInt := by rw [exact, read, hj]
      have heval : (column index).formula.eval row = .ok (.integer j) := by
        unfold formula Formula.eval
        rw [hj]
      rw [heval, hexact]
      exact settles_integer.congr (iff_of_true (inWord_toInt j) (by simp [Fits, parts, Ends]))
  | adjust change e ih => exact (change.settles e.formula (ih h)).congr fits_adjust.symm
  | combine op l r ihl ihr =>
      refine ((ihl h.1).bind fun a ha _ => (ihr h.2).bind fun b hb _ => ?_).congr fits_combine.symm
      rw [exact, ← ha, ← hb]
      exact op.settles a b

/-- A calculation gives its exact value iff no divisor in it is zero and
all that is calculated on the way has a place in 64 bits. Otherwise it
fails for one of these causes. -/
theorem eval_exact (e : Calculation) (row : Row) (h : e.OnIntegers row) :
    ((∃ i : Int64, e.formula.eval row = .ok (.integer i) ∧ i.toInt = e.exact row) ↔ e.Fits row) ∧
      (¬e.Fits row → e.formula.eval row = .error (.invalid .integerOverflow) ∨
        e.formula.eval row = .error (.invalid .divisionByZero)) := by
  obtain ⟨hfits, hvalue⟩ | ⟨hfits, hfails⟩ := e.settles h
  · exact ⟨iff_of_true hvalue hfits, fun hnot => absurd hfits hnot⟩
  · have hnone : ¬∃ i : Int64, e.formula.eval row = .ok (.integer i) ∧ i.toInt = e.exact row := by
      rintro ⟨i, hi, -⟩
      rcases hfails with hfails | hfails <;> rw [hi] at hfails <;> cases hfails
    exact ⟨iff_of_false hnone hfits, fun _ => hfails⟩

/-- `-(a / b) + ABS(a % b)`, of the columns `a` and `b`. -/
def quotientAndRest : Calculation :=
  combine .add (adjust .negate (combine .divide (column 0) (column 1)))
    (adjust .absolute (combine .remainder (column 0) (column 1)))

/-- Of the least integer by 3 it has a value. By -1 it has none, and
would not even if it were only the remainder. -/
theorem eval_exact_least :
    (∃ i : Int64,
      quotientAndRest.formula.eval [.integer Int64.minValue, .integer 3] = .ok (.integer i) ∧
        i.toInt = 3074457345618258604) ∧
    (∀ e ∈ [quotientAndRest, combine .remainder (column 0) (column 1)],
      e.formula.eval [.integer Int64.minValue, .integer (-1)] =
          .error (.invalid .integerOverflow) ∨
        e.formula.eval [.integer Int64.minValue, .integer (-1)] =
          .error (.invalid .divisionByZero)) := by
  have hcolumns (b : Int64) :
      quotientAndRest.OnIntegers [.integer Int64.minValue, .integer b] ∧
        (combine .remainder (column 0) (column 1)).OnIntegers
          [.integer Int64.minValue, .integer b] :=
    have h : (column 0).OnIntegers [.integer Int64.minValue, .integer b] ∧
        (column 1).OnIntegers [.integer Int64.minValue, .integer b] := ⟨⟨_, rfl⟩, ⟨_, rfl⟩⟩
    ⟨⟨h, h⟩, h⟩
  refine ⟨(eval_exact quotientAndRest _ (hcolumns 3).1).1.mpr (by decide), ?_⟩
  refine List.forall_mem_cons.mpr ⟨?_, List.forall_mem_singleton.mpr ?_⟩
  · exact (eval_exact _ _ (hcolumns (-1)).1).2 (by decide)
  · exact (eval_exact _ _ (hcolumns (-1)).2).2 (by decide)

end Calculation

end DialectDb
