/-
Floating point numbers in integer columns. A column stores the integer
that the number is, and refuses a number that is no 64-bit integer, but
for one: 2 to the 63 is stored as the greatest integer, which is one
less (`coerce_exact`).
-/
import DialectDb.Proofs.ExactNumbers
import DialectDb.Proofs.Storage

namespace DialectDb.Value

/-- A number narrows to the 64-bit integer that it is, and the number one
past these to the greatest of them. -/
theorem narrow?_eq_some {d : Double} {i : Int64} : narrow? d = some i ↔
    d.number? = some (.ofRat i.toInt) ∨
      d.number? = some (.ofRat (2 ^ 63 : Int)) ∧ i = Int64.maxValue := by
  have hlow : -2 ^ 63 ≤ i.toInt := i.minValue_le_toInt
  have hhigh : i.toInt ≤ 2 ^ 63 - 1 := i.toInt_le
  have hmin : Int64.minValue.toInt = -2 ^ 63 := rfl
  have hmax : Int64.maxValue.toInt = 2 ^ 63 - 1 := rfl
  unfold narrow?
  rw [← Double.toInt?_eq_some, ← Double.toInt?_eq_some, ← Int64.toInt_inj, hmin, hmax]
  cases d.toInt? with
  | none => simp
  | some n =>
      have hcast (hn : -2 ^ 63 ≤ n) : (Int64.ofInt (min n (2 ^ 63 - 1))).toInt =
          min n (2 ^ 63 - 1) :=
        Int64.toInt_ofInt_of_le (by omega) (by omega)
      simp only [Option.bind_eq_bind, Option.bind_some, Option.some_inj,
        Option.ite_none_right_eq_some, ← Int64.toInt_inj]
      constructor
      · rintro ⟨⟨hn, htop⟩, hi⟩
        rw [hcast hn] at hi
        omega
      · intro h
        have hn : -2 ^ 63 ≤ n := by omega
        rw [hcast hn]
        omega

/-- A floating point number is stored in an integer column as the integer
that it is, or not at all, but for the number one past the 64-bit
integers; and what a column has stored it stores again as it is. -/
theorem coerce_exact (d : Double) (v w : Value) (type : DataType) :
    (coerce (.float d) .integer = .ok w ↔
      (∃ i : Int64, d.number? = some (.ofRat i.toInt) ∧ w = .integer i) ∨
        d.number? = some (.ofRat (2 ^ 63 : Int)) ∧ w = .integer Int64.maxValue) ∧
      (coerce v type = .ok w →
        (w = .null ∨ w.type? = some type) ∧ coerce w type = .ok w) := by
  constructor
  · have hnarrow : coerce (.float d) .integer = .ok w ↔
        ∃ i, narrow? d = some i ∧ w = .integer i := by
      cases h : narrow? d with
      | none => simp [coerce, h]
      | some i => simp [coerce, h, eq_comm]
    simp only [hnarrow, narrow?_eq_some, or_and_right, exists_or, and_assoc, exists_and_left,
      exists_eq_left]
  · intro h
    exact ⟨type_of_coerce h, coerce_of_type (type_of_coerce h)⟩

/-- The greatest floating point number below 2 to the 63 is stored as it
is, and stored again. -/
theorem coerce_exact_below :
    coerce (.float ⟨0x43DFFFFFFFFFFFFF⟩) .integer = .ok (.integer 9223372036854774784) ∧
      coerce (.integer 9223372036854774784) .integer = .ok (.integer 9223372036854774784) := by
  obtain ⟨hstored, -⟩ :=
    coerce_exact ⟨0x43DFFFFFFFFFFFFF⟩ .null (.integer 9223372036854774784) .integer
  have hnumber : (⟨0x43DFFFFFFFFFFFFF⟩ : Double).number? =
      some (.ofRat ((9223372036854774784 : Int64).toInt)) :=
    Double.toInt?_eq_some.mp (by decide +kernel)
  have hfirst := hstored.mpr (.inl ⟨9223372036854774784, hnumber, rfl⟩)
  obtain ⟨-, hagain⟩ :=
    coerce_exact ⟨0⟩ (.float ⟨0x43DFFFFFFFFFFFFF⟩) (.integer 9223372036854774784) .integer
  exact ⟨hfirst, (hagain hfirst).2⟩

/-- 2 to the 63 is no 64-bit integer, but is stored as the greatest one. -/
theorem coerce_past_greatest :
    (⟨0x43E0000000000000⟩ : Double).number? = some (.ofRat (2 ^ 63 : Int)) ∧
      coerce (.float ⟨0x43E0000000000000⟩) .integer = .ok (.integer 9223372036854775807) ∧
      ∀ i : Int64, (⟨0x43E0000000000000⟩ : Double).number? ≠ some (.ofRat i.toInt) := by
  have hwhole : (⟨0x43E0000000000000⟩ : Double).toInt? = some (2 ^ 63) := by decide +kernel
  refine ⟨Double.toInt?_eq_some.mp hwhole, by decide +kernel, fun i hi => ?_⟩
  have hhigh : i.toInt ≤ 2 ^ 63 - 1 := i.toInt_le
  rw [← Double.toInt?_eq_some, hwhole, Option.some_inj] at hi
  omega

end DialectDb.Value
