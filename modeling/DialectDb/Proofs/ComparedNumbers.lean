/-
SQL comparison of numbers. Where an integer meets a floating point
number, or a text of digits an integer, the integers are converted
first. Then they compare as they would exactly, unless a converted one
is the other number without having been it (`compare_converted`). Up to
2 to the 53 no integer is changed by the conversion.
-/
import DialectDb.Proofs.RoundedIntegers
import DialectDb.Proofs.ShownNumbers
import DialectDb.Value.Order

namespace DialectDb

-- =============================================================== texts

/-- A text without blanks stays as it is. -/
theorem Text.trim_eq {text : String} (h : ∀ c ∈ text.toList, isBlank c = false) :
    trim text = text := by
  have hkeep (chars : List Char) (hchars : ∀ c ∈ chars, isBlank c = false) :
      chars.dropWhile isBlank = chars := by
    cases chars with
    | nil => rfl
    | cons c rest => exact List.dropWhile_cons_of_neg (by simp [hchars c List.mem_cons_self])
  unfold trim
  rw [hkeep _ h, hkeep _ fun c hc => h c (List.mem_reverse.mp hc), List.reverse_reverse,
    String.ofList_toList]

/-- A digit is no blank. -/
theorem Text.isBlank_of_isDigit {c : Char} (h : isDigit c = true) : isBlank c = false := by
  by_contra hblank
  have hbreaks : Lexer.breaks c = true := Bool.or_eq_true_iff.mpr (.inl (by simpa using hblank))
  rw [Lexer.isDigit_of_breaks hbreaks] at h
  cases h

namespace Double

/-- The text of an integer has digits only, but for its sign. -/
theorem trim_toString (i : Int) : Text.trim (toString i) = toString i := by
  refine Text.trim_eq fun c hc => ?_
  rw [toString_int, List.mem_append] at hc
  rcases hc with hsign | hdigits
  · split at hsign
    · rw [List.mem_singleton.mp hsign]
      rfl
    · cases hsign
  · exact Text.isBlank_of_isDigit (List.all_eq_true.mp (isDigit_toString _) c hdigits)

/-- Digits alone are read as a decimal without a fraction. -/
theorem readDecimal?_digits (negative : Bool) {digits : List Char}
    (h : digits.all Text.isDigit = true) (hne : digits ≠ []) :
    readDecimal? negative digits = some (ofDecimal negative digits 0) := by
  have hspan : digits.span Text.isDigit = (digits, []) := by
    have happend := @Text.span_append Text.isDigit digits [] h nofun
    rwa [List.append_nil] at happend
  unfold readDecimal?
  simp only [hspan, List.isEmpty_eq_false_iff.mpr hne, Bool.false_and, readExponent?]
  simp

/-- Where they write a natural number, that is the number, rounded. The
number is not so great that the digits are passed over. -/
theorem ofDecimal_toString (negative : Bool) {n : Nat} (h : n < 2 ^ 64)
    (hzero : n = 0 → negative = false) :
    ofDecimal negative (toString n).toList 0 = ofRatio negative n 1 := by
  have hone : power 10 0 = 1 := rfl
  unfold ofDecimal
  rw [digitsValue_toString]
  by_cases hn : n = 0
  · rw [if_pos hn, hn, hzero hn]
    rfl
  · have hlog := (Nat.log2_lt hn).mpr h
    rw [if_neg hn, if_neg (by omega), if_neg (by omega), Int.neg_zero, hone, Nat.mul_one]

/-- The text of an integer is read as what the integer is converted to. -/
theorem ofText?_toString {i : Int} (h : i.natAbs < 2 ^ 64) :
    ofText? (toString i) = some (ofInt i) := by
  have hread : readDecimal? (decide (i < 0)) (toString i.natAbs).toList = some (ofInt i) := by
    rw [readDecimal?_digits _ (isDigit_toString _) (toString_ne_nil _),
      ofDecimal_toString _ h (by simp +contextual), ofInt]
  obtain ⟨c, chars, hchars⟩ := List.exists_cons_of_ne_nil (toString_ne_nil i.natAbs)
  have hfirst : Text.isDigit c = true :=
    List.all_eq_true.mp (isDigit_toString i.natAbs) c (hchars ▸ List.mem_cons_self)
  obtain ⟨hminus, hplus⟩ := digit_ne_sign hfirst
  unfold ofText?
  rw [toString_int]
  rw [hchars] at hread ⊢
  by_cases hnegative : i < 0
  · rw [decide_eq_true hnegative] at hread
    simp [hnegative, hread]
  · rw [decide_eq_false hnegative] at hread
    simp [hnegative, hminus, hplus, hread]

-- ========================================================= comparisons

theorem compare?_swap (a b : Double) : b.compare? a = (a.compare? b).map Ordering.swap := by
  have hswap : compare b.rank a.rank = (compare a.rank b.rank).swap := Std.OrientedCmp.eq_swap
  unfold compare?
  rw [Bool.or_comm, hswap]
  split <;> rfl

/-- Rounding keeps the order of the integers. -/
theorem rank_ofInt_mono {i j : Int} (h : i ≤ j) : (ofInt i).rank ≤ (ofInt j).rank :=
  rank_le_of_totalRank_le (totalRank_ofInt_mono h)

/-- Only zero is rounded to a zero. -/
theorem eq_zero_of_magnitude_ofInt {i : Int} (h : (ofInt i).magnitude = 0) : i = 0 := by
  by_contra hi
  have hone : naturalMagnitude 1 ≤ naturalMagnitude i.natAbs := naturalMagnitude_mono (by omega)
  have hpos : 0 < naturalMagnitude 1 := by decide
  rw [(bits_ofInt i).2] at h
  omega

/-- Integers that are rounded to one place are rounded to one number. -/
theorem ofInt_eq_of_rank {i j : Int} (h : (ofInt i).rank = (ofInt j).rank) : ofInt i = ofInt j := by
  rcases eq_or_zeros_of_rank h with hsame | ⟨hi, hj⟩
  · exact hsame
  · rw [eq_zero_of_magnitude_ofInt hi, eq_zero_of_magnitude_ofInt hj]

/-- Converted integers compare as the integers do, unless they have become
one number. -/
theorem compare?_ofInt_ofInt (i j : Int) : (ofInt i).compare? (ofInt j) =
    some (if ofInt i = ofInt j then .eq else compare i j) := by
  unfold compare?
  rw [isNaN_ofInt, isNaN_ofInt, Bool.or_self, if_neg Bool.false_ne_true]
  congr 1
  by_cases hsame : ofInt i = ofInt j
  · rw [if_pos hsame, hsame, compare_eq_iff_eq.mpr rfl]
  · rw [if_neg hsame]
    exact compare_of_mono rank_ofInt_mono rank_ofInt_mono (mt ofInt_eq_of_rank hsame)

end Double

-- ============================================================== values

namespace Value

/-- The order of an integer and a number that SQL comparison tells: the
exact one, unless the integer is rounded to the number. -/
def roundedOrder (i : Int) (x : Number) : Ordering :=
  if (Double.ofInt i).number? = some x then .eq else Ord.compare (Number.ofRat i) x

/-- The order of two integers that it tells where one of them is a text. -/
def convertedOrder (i j : Int) : Ordering :=
  if Double.ofInt i = Double.ofInt j then .eq else Ord.compare i j

/-- So it tells the exact one iff the integer is not rounded to the
number, or is the number. -/
theorem roundedOrder_exact_iff (i : Int) (x : Number) :
    roundedOrder i x = Ord.compare (Number.ofRat i) x ↔
      ((Double.ofInt i).number? = some x → Number.ofRat i = x) := by
  unfold roundedOrder
  split
  · next h => simp only [h, true_imp_iff, eq_comm (a := Ordering.eq), compare_eq_iff_eq]
  · next h => simp [h]

theorem convertedOrder_exact_iff (i j : Int) :
    convertedOrder i j = Ord.compare i j ↔ (Double.ofInt i = Double.ofInt j → i = j) := by
  unfold convertedOrder
  split
  · next h => simp only [h, true_imp_iff, eq_comm (a := Ordering.eq), compare_eq_iff_eq]
  · next h => simp [h]

/-- The text of an integer is read as a number. -/
theorem readNumber_toString (m : Int64) (number : Value) :
    readNumber (toString m.toInt) number = .ok (Double.ofInt m.toInt) := by
  have hsize : m.toInt.natAbs < 2 ^ 64 := by
    have hlow : -2 ^ 63 ≤ m.toInt := m.minValue_le_toInt
    have hhigh : m.toInt ≤ 2 ^ 63 - 1 := m.toInt_le
    omega
  unfold readNumber
  rw [Double.trim_toString, Double.ofText?_toString hsize]

/-- Numbers compare by their exact values, but for what the conversion
makes of integers, which is nothing up to 2 to the 53. -/
theorem compare_converted (m n : Int64) (d : Double) :
    compare (.integer m) (.float d) = .ok (d.number?.map (roundedOrder m.toInt)) ∧
      compare (.float d) (.integer m) =
        .ok (d.number?.map fun x => (roundedOrder m.toInt x).swap) ∧
      compare (.string (toString m.toInt)) (.integer n) =
        .ok (some (convertedOrder m.toInt n.toInt)) ∧
      compare (.integer n) (.string (toString m.toInt)) =
        .ok (some (convertedOrder n.toInt m.toInt)) ∧
      (∀ x, roundedOrder m.toInt x = Ord.compare (Number.ofRat m.toInt) x ↔
        ((Double.ofInt m.toInt).number? = some x → Number.ofRat m.toInt = x)) ∧
      (convertedOrder m.toInt n.toInt = Ord.compare m.toInt n.toInt ↔
        (Double.ofInt m.toInt = Double.ofInt n.toInt → m = n)) ∧
      (m.toInt.natAbs ≤ 2 ^ 53 → (Double.ofInt m.toInt).number? = some (.ofRat m.toInt)) := by
  have hfloat : (Double.ofInt m.toInt).compare? d = d.number?.map (roundedOrder m.toInt) :=
    Double.compare?_ofInt m.toInt d
  have htext (number : Value) := readNumber_toString m number
  refine ⟨congrArg Except.ok hfloat, ?_, ?_, ?_, roundedOrder_exact_iff m.toInt, ?_, ?_⟩
  · show Except.ok (d.compare? (Double.ofInt m.toInt)) = _
    rw [Double.compare?_swap, hfloat, Option.map_map]
    rfl
  · simp only [compare, htext]
    exact congrArg Except.ok (Double.compare?_ofInt_ofInt _ _)
  · simp only [compare, htext]
    exact congrArg Except.ok (Double.compare?_ofInt_ofInt _ _)
  · rw [convertedOrder_exact_iff, Int64.toInt_inj]
  · exact fun h => Double.number?_ofInt (Double.isShort_of_le h)

/-- The integer before 2 to the 53 is converted as it is, and less than that
number. -/
theorem compare_converted_short :
    (Double.ofInt 9007199254740991).number? = some (.ofRat (9007199254740991 : Int)) ∧
      compare (.integer 9007199254740991) (.float ⟨0x4340000000000000⟩) = .ok (some .lt) := by
  obtain ⟨hfloat, -, -, -, hexact, -, hshort⟩ :=
    compare_converted 9007199254740991 0 ⟨0x4340000000000000⟩
  have hsame : (Double.ofInt 9007199254740991).number? = some (.ofRat (9007199254740991 : Int)) :=
    hshort (by decide)
  have hnumber : (⟨0x4340000000000000⟩ : Double).number? = some (.ofRat (9007199254740992 : Int)) :=
    Double.toInt?_eq_some.mp (by decide +kernel)
  have hless : Number.ofRat (9007199254740991 : Int) < .ofRat (9007199254740992 : Int) :=
    WithBot.coe_lt_coe.mpr (WithTop.coe_lt_coe.mpr (by norm_num))
  refine ⟨hsame, ?_⟩
  have horder : roundedOrder 9007199254740991 (.ofRat (9007199254740992 : Int)) = .lt := by
    refine ((hexact _).mpr fun h => ?_).trans (compare_lt_iff_lt.mpr hless)
    exact Option.some_inj.mp (hsame.symm.trans h)
  rw [hfloat, hnumber]
  exact congrArg (fun order => Except.ok (some order)) horder

/-- The next integer after 2 to the 53 is greater than that number, but is
rounded to it, and compares as the same, and so does its text with the
integer. -/
theorem compare_rounded_down :
    (⟨0x4340000000000000⟩ : Double).number? = some (.ofRat (9007199254740992 : Int)) ∧
      Number.ofRat (9007199254740992 : Int) < .ofRat (9007199254740993 : Int) ∧
      compare (.integer 9007199254740993) (.float ⟨0x4340000000000000⟩) = .ok (some .eq) ∧
      compare (.string "9007199254740993") (.integer 9007199254740992) = .ok (some .eq) ∧
      compare (.integer 9007199254740992) (.string "9007199254740993") = .ok (some .eq) := by
  refine ⟨Double.toInt?_eq_some.mp (by decide +kernel), ?_, by decide +kernel, by decide +kernel,
    by decide +kernel⟩
  exact WithBot.coe_lt_coe.mpr (WithTop.coe_lt_coe.mpr (by norm_num))

end Value

end DialectDb
