/-
A finite number is read back from its text. The text is digits, digits
behind a point and an exponent, of which one of the last two may be
missing (`Layout`); whatever its layout, the text has the value of the
shortest decimal, and a scanner takes the whole of it.
-/
import DialectDb.Double.Arithmetic
import DialectDb.Proofs.ShortestDecimals
import DialectDb.Proofs.WrittenTokens

namespace DialectDb.Double

-- =============================================================== layouts

/-- A decimal as it stands in a text: digits, digits behind a point, and
an exponent. -/
structure Layout where
  whole : List Char
  fraction : List Char
  exponent : Option Int

namespace Layout

/-- The fraction with its point, if there is one. -/
def fractionText (l : Layout) : List Char :=
  if l.fraction = [] then [] else '.' :: l.fraction

/-- The exponent with its mark, if there is one. -/
def exponentText (l : Layout) : List Char :=
  match l.exponent with
  | none => []
  | some n => 'e' :: (toString n).toList

def chars (l : Layout) : List Char :=
  l.whole ++ (l.fractionText ++ l.exponentText)

/-- There are digits before the point, and something behind them. -/
structure Proper (l : Layout) : Prop where
  whole_ne : l.whole ≠ []
  whole : l.whole.all Text.isDigit = true
  fraction : l.fraction.all Text.isDigit = true
  marked : l.fraction ≠ [] ∨ l.exponent.isSome = true

/-- The number that a layout stands for. -/
def value (l : Layout) : ℚ :=
  digitsValue (l.whole ++ l.fraction) * 10 ^ (l.exponent.getD 0 - l.fraction.length)

end Layout

theorem toString_int (n : Int) :
    (toString n).toList = (if n < 0 then ['-'] else []) ++ (toString n.natAbs).toList := by
  cases n with
  | ofNat n => rfl
  | negSucc n =>
      show ("-" ++ Nat.repr (n + 1)).toList = _
      rw [String.toList_append, if_pos (Int.negSucc_lt_zero n)]
      rfl

/-- Digits begin with no sign. -/
theorem digit_ne_sign {c : Char} (h : Text.isDigit c = true) : c ≠ '-' ∧ c ≠ '+' := by
  constructor <;> rintro rfl <;> cases h

/-- The exponent is read from its text. -/
theorem readExponent?_toString {n : Int} (h : n.natAbs < 65536) :
    readExponent? ('e' :: (toString n).toList) = some n := by
  rw [toString_int]
  by_cases hnegative : n < 0
  · rw [if_pos hnegative, List.singleton_append, readExponent?_places h]
    congr 1
    omega
  · have hdigits := digits_toString n.natAbs
    have hvalue := exponentValue_toString h
    obtain ⟨c, chars, hchars⟩ := List.exists_cons_of_ne_nil (toString_ne_nil n.natAbs)
    have hfirst : Text.isDigit c = true :=
      List.all_eq_true.mp (isDigit_toString n.natAbs) c (hchars ▸ List.mem_cons_self)
    obtain ⟨hminus, hplus⟩ := digit_ne_sign hfirst
    rw [hchars] at hdigits hvalue
    have hnatural : (n.natAbs : Int) = n := by omega
    rw [if_neg hnegative, List.nil_append, hchars]
    simp [readExponent?, hminus, hplus, hvalue, hnatural]
    simpa using hdigits

namespace Layout

variable {l : Layout}

/-- Behind the digits stands no digit and no further point. -/
theorem exponentText_head (l : Layout) {rest : List Char}
    (hrest : ∀ c ∈ rest.head?, Lexer.breaks c = true) :
    ∀ c ∈ (l.exponentText ++ rest).head?, Text.isDigit c = false ∧ c ≠ '.' := by
  intro c hc
  unfold exponentText at hc
  split at hc
  · have hbreaks := hrest c hc
    exact ⟨Lexer.isDigit_of_breaks hbreaks, Lexer.ne_of_breaks hbreaks rfl⟩
  · cases hc
    exact ⟨rfl, by decide⟩

theorem fractionText_head (l : Layout) {rest : List Char}
    (hrest : ∀ c ∈ rest.head?, Lexer.breaks c = true) :
    ∀ c ∈ (l.fractionText ++ (l.exponentText ++ rest)).head?, Text.isDigit c = false := by
  intro c hc
  unfold fractionText at hc
  split at hc
  · exact (l.exponentText_head hrest c hc).1
  · cases hc
    rfl

/-- A layout is read as its digits and where they end. -/
theorem Proper.read (h : l.Proper) (hexponent : ∀ n ∈ l.exponent, n.natAbs < 65536) :
    readDecimal? false l.chars =
      some (ofDecimal false (l.whole ++ l.fraction) (l.exponent.getD 0 - l.fraction.length)) := by
  have hread : readExponent? l.exponentText = some (l.exponent.getD 0) := by
    unfold exponentText
    split
    · next hnone =>
        rw [hnone]
        rfl
    · next n hsome =>
        rw [hsome]
        exact readExponent?_toString (hexponent n hsome)
  have hhead := @exponentText_head l [] nofun
  have hwhole := Text.span_append h.whole (@fractionText_head l [] nofun)
  rw [List.append_nil] at hhead hwhole
  have hsome : l.whole.isEmpty = false := List.isEmpty_eq_false_iff.mpr h.whole_ne
  unfold readDecimal? chars
  simp only [hwhole, hsome]
  by_cases hfraction : l.fraction = []
  · have hnone : l.fractionText = [] := if_pos hfraction
    rw [hnone, List.nil_append, hfraction, List.append_nil]
    split
    · next tail htail =>
        have hpoint := (hhead '.' (by rw [htail]; rfl)).2
        exact absurd rfl hpoint
    · simp [hread]
  · have hpoint : l.fractionText = '.' :: l.fraction := if_neg hfraction
    have hspan := Text.span_append h.fraction fun c hc => (hhead c hc).1
    simp only [hpoint, List.cons_append, hspan, Bool.false_and, hread]
    rfl

/-- A scanner takes all of it. -/
theorem Proper.scan (h : l.Proper) {rest : List Char}
    (hrest : ∀ c ∈ rest.head?, Lexer.breaks c = true) :
    Lexer.scanNumber (l.chars ++ rest) =
      .ok ⟨.number (.ofList l.chars), Text.byteSize l.chars, rest⟩ := by
  have hhead := l.exponentText_head hrest
  have hwhole := Text.span_append h.whole (l.fractionText_head hrest)
  have hfraction : Lexer.spanFraction (l.fractionText ++ (l.exponentText ++ rest)) =
      (l.fractionText, l.exponentText ++ rest) := by
    unfold fractionText
    split
    · exact Lexer.spanFraction_of_ne fun hpoint => (hhead '.' hpoint).2 rfl
    · have hspan := Text.span_append h.fraction fun c hc => (hhead c hc).1
      simp only [List.cons_append, Lexer.spanFraction, hspan]
  have hexponent : Lexer.spanExponent (l.exponentText ++ rest) = (l.exponentText, rest) := by
    unfold exponentText
    split
    · refine Lexer.spanExponent_of_not_mark fun c hc => ?_
      exact not_or.mpr ⟨Lexer.ne_of_breaks (hrest c hc) rfl, Lexer.ne_of_breaks (hrest c hc) rfl⟩
    · next n _ =>
        have hdigits := Text.span_append (isDigit_toString n.natAbs) fun c hc =>
          Lexer.isDigit_of_breaks (hrest c hc)
        have hsign : Lexer.spanSign ((toString n).toList ++ rest) =
            (if n < 0 then ['-'] else [], (toString n.natAbs).toList ++ rest) := by
          rw [toString_int, List.append_assoc]
          split
          · rfl
          · refine Lexer.spanSign_of_not_sign fun c hc => ?_
            rw [List.nil_append, List.head?_append_of_ne_nil _ (toString_ne_nil _)] at hc
            have hdigit := List.all_eq_true.mp (isDigit_toString n.natAbs) c (List.mem_of_head? hc)
            exact not_or.mpr (digit_ne_sign hdigit).symm
        rw [List.cons_append, Lexer.spanExponent_mark (.inl rfl), hsign, hdigits, toString_int]
  have hchars : l.whole ++ l.fractionText ++ l.exponentText = l.chars := List.append_assoc _ _ _
  have hall : l.chars ++ rest = l.whole ++ (l.fractionText ++ (l.exponentText ++ rest)) := by
    simp [chars]
  rw [hall, Lexer.scanNumber_eq]
  simp only [hwhole, hfraction, hexponent, hchars]

end Layout

-- ============================================================= decimals

theorem appendDigits_append (n : Nat) (a b : List Char) :
    appendDigits n (a ++ b) = appendDigits (appendDigits n a) b :=
  List.foldl_append

theorem appendDigits_zeros (n count : Nat) :
    appendDigits n (List.replicate count '0') = n * 10 ^ count := by
  induction count generalizing n with
  | zero => exact (Nat.mul_one n).symm
  | succ count ih =>
      show appendDigits (10 * n + 0) (List.replicate count '0') = _
      rw [ih, Nat.add_zero, Nat.pow_succ, Nat.mul_comm 10, Nat.mul_assoc, Nat.mul_comm 10]

namespace Decimal

/-- The digits up to the last that is not zero. -/
def significant (d : Decimal) : List Char :=
  ((Nat.toDigits 10 d.digits).reverse.dropWhile (· == '0')).reverse

/-- How far behind its first digit the point of a decimal stands. -/
def point (d : Decimal) : Int :=
  (Nat.toDigits 10 d.digits).length + d.exponent

/-- The layout that `text` has: with an exponent only where the point is
far from the digits. -/
def layout (d : Decimal) : Layout :=
  if -3 ≤ d.point ∧ d.point ≤ 0 then
    ⟨['0'], List.replicate (-d.point).toNat '0' ++ d.significant, none⟩
  else if 0 < d.point ∧ d.point ≤ 16 then
    let whole := d.significant.take d.point.toNat
    let fraction := d.significant.drop d.point.toNat
    ⟨whole ++ List.replicate (d.point - whole.length).toNat '0',
      if fraction.isEmpty then ['0'] else fraction, none⟩
  else ⟨d.significant.take 1, d.significant.drop 1, some (d.point - 1)⟩

/-- A point stands before some digit. -/
theorem orZero_ne_nil (digits : List Char) : (if digits.isEmpty then ['0'] else digits) ≠ [] := by
  split
  · exact List.cons_ne_nil _ _
  · next hsome => simpa using hsome

/-- Behind the significant digits stand zeros. -/
theorem digits_split (d : Decimal) :
    ∃ zeros, Nat.toDigits 10 d.digits = d.significant ++ List.replicate zeros '0' := by
  have hsplit := @List.takeWhile_append_dropWhile _ (· == '0') (Nat.toDigits 10 d.digits).reverse
  have hzeros : ∀ c ∈ (Nat.toDigits 10 d.digits).reverse.takeWhile (· == '0'), c = '0' :=
    fun c hc => eq_of_beq (List.all_eq_true.mp List.all_takeWhile c hc)
  refine ⟨((Nat.toDigits 10 d.digits).reverse.takeWhile (· == '0')).length, ?_⟩
  rw [← List.reverse_replicate, ← List.eq_replicate_of_mem hzeros, significant,
    ← List.reverse_append, hsplit, List.reverse_reverse]

/-- What the significant digits are short of is in the point. -/
theorem value_eq (d : Decimal) :
    d.value = appendDigits 0 d.significant * (10 : ℚ) ^ (d.point - d.significant.length) := by
  obtain ⟨zeros, hzeros⟩ := d.digits_split
  have hdigits : d.digits = appendDigits 0 d.significant * 10 ^ zeros := by
    rw [← appendDigits_zeros, ← appendDigits_append, ← hzeros]
    exact (Nat.ofDigitChars_toDigits (by decide) (by decide)).symm
  have hpoint : d.point - d.significant.length = (zeros : Int) + d.exponent := by
    unfold point
    rw [hzeros, List.length_append, List.length_replicate]
    omega
  rw [hpoint, zpow_add₀ (by decide), zpow_natCast, value, ← mul_assoc]
  congr 1
  rw [hdigits, Nat.cast_mul, Nat.cast_pow]
  rfl

theorem significant_ne_nil {d : Decimal} (h : d.digits ≠ 0) : d.significant ≠ [] := by
  intro hnil
  obtain ⟨zeros, hzeros⟩ := d.digits_split
  have hvalue : appendDigits 0 (Nat.toDigits 10 d.digits) = d.digits :=
    Nat.ofDigitChars_toDigits (by decide) (by decide)
  rw [hzeros, hnil, List.nil_append, appendDigits_zeros, Nat.zero_mul] at hvalue
  exact h hvalue.symm

theorem significant_digits (d : Decimal) : d.significant.all Text.isDigit = true := by
  obtain ⟨zeros, hzeros⟩ := d.digits_split
  refine List.all_eq_true.mpr fun c hc => ?_
  refine Nat.isDigit_of_mem_toDigits (b := 10) (n := d.digits) (by decide) (by decide) ?_
  rw [hzeros]
  exact List.mem_append_left _ hc

/-- The two texts agree in each of the three layouts. -/
theorem text_eq {d : Decimal} (h : d.digits ≠ 0) : d.text = .ofList d.layout.chars := by
  have hne := significant_ne_nil h
  unfold text layout
  dsimp only
  change String.ofList (if (decide (-3 ≤ d.point) && decide (d.point ≤ 0)) = true then _
    else if (decide (0 < d.point) && decide (d.point ≤ 16)) = true then _ else _) = _
  simp only [Bool.and_eq_true, decide_eq_true_eq]
  congr 1
  by_cases hsmall : -3 ≤ d.point ∧ d.point ≤ 0
  · rw [if_pos hsmall, if_pos hsmall]
    have hfraction : List.replicate (-d.point).toNat '0' ++ d.significant ≠ [] :=
      List.append_ne_nil_of_right_ne_nil _ hne
    simp only [Layout.chars, Layout.fractionText, Layout.exponentText, if_neg hfraction,
      List.append_nil]
    rfl
  rw [if_neg hsmall, if_neg hsmall]
  by_cases hplain : 0 < d.point ∧ d.point ≤ 16
  · rw [if_pos hplain, if_pos hplain]
    have hfraction := orZero_ne_nil (d.significant.drop d.point.toNat)
    simp only [Layout.chars, Layout.fractionText, Layout.exponentText, if_neg hfraction,
      List.append_nil]
    exact List.append_assoc _ _ _
  · rw [if_neg hplain, if_neg hplain]
    have hfraction : d.significant.drop 1 = [] ↔ d.significant.length ≤ 1 := List.drop_eq_nil_iff
    simp only [Layout.chars, Layout.fractionText, Layout.exponentText, hfraction,
      List.append_assoc]
    rfl

/-- Digits that stand for a number and some zeros, with the point moved by
as many places. -/
theorem digitsValue_scaled {digits : List Char} {n : Nat} {e p t : Int}
    (hvalue : (appendDigits 0 digits : ℚ) = n * 10 ^ p) (hexponent : p + e = t) :
    (digitsValue digits : ℚ) * 10 ^ e = n * 10 ^ t := by
  have hdigits : digitsValue digits = appendDigits 0 digits := valueInParts_eq _ _
  rw [hdigits, hvalue, mul_assoc, ← zpow_add₀ (by decide), hexponent]

/-- The layout stands for the decimal. -/
theorem layout_value {d : Decimal} (h : d.digits ≠ 0) : d.layout.value = d.value := by
  have hne := List.length_pos_iff.mpr (significant_ne_nil h)
  rw [value_eq]
  unfold layout Layout.value
  split
  · next hsmall =>
      -- zeros before the digits change nothing
      refine digitsValue_scaled (p := 0) ?_ ?_
      · have hzero : appendDigits 0 ['0'] = 0 := rfl
        rw [zpow_zero, mul_one, appendDigits_append, appendDigits_append, appendDigits_zeros, hzero,
          Nat.zero_mul]
      · simp only [List.length_append, List.length_replicate, Option.getD_none]
        omega
  split
  · next hplain =>
      by_cases hlong : d.significant.length ≤ d.point.toNat
      · -- zeros behind them move the point
        have htake : d.significant.take d.point.toNat = d.significant :=
          List.take_of_length_le hlong
        have hdrop : d.significant.drop d.point.toNat = [] := List.drop_eq_nil_of_le hlong
        refine digitsValue_scaled (p := (d.point - d.significant.length).toNat + 1) ?_ ?_
        · simp only [htake, hdrop, List.isEmpty_nil, if_true, appendDigits_append,
            appendDigits_zeros]
          rw [← Nat.cast_succ, zpow_natCast, pow_succ, ← mul_assoc]
          show ((10 * _ + 0 : Nat) : ℚ) = _
          push_cast
          ring
        · simp only [hdrop, List.isEmpty_nil, if_true, List.length_singleton, Option.getD_none]
          omega
      · have hnone : (d.point - (d.significant.take d.point.toNat).length).toNat = 0 := by
          rw [List.length_take]
          omega
        have hdrop : (d.significant.drop d.point.toNat).isEmpty = false := by
          simpa using Nat.lt_of_not_le hlong
        refine digitsValue_scaled (p := 0) ?_ ?_
        · simp only [hnone, hdrop, List.replicate_zero, List.append_nil, Bool.false_eq_true,
            if_false, List.take_append_drop, zpow_zero, mul_one]
        · simp only [hdrop, Bool.false_eq_true, if_false, List.length_drop, Option.getD_none]
          omega
  · refine digitsValue_scaled (p := 0) ?_ ?_
    · rw [zpow_zero, mul_one, List.take_append_drop]
    · simp only [List.length_drop, Option.getD_some]
      omega

theorem layout_proper {d : Decimal} (h : d.digits ≠ 0) : d.layout.Proper := by
  have hne := significant_ne_nil h
  have hsignificant := d.significant_digits
  have hzeros (count : Nat) : (List.replicate count '0').all Text.isDigit = true := by
    simp [Text.isDigit]
  have htake (count : Nat) : (d.significant.take count).all Text.isDigit = true :=
    List.all_eq_true.mpr fun c hc => List.all_eq_true.mp hsignificant c (List.mem_of_mem_take hc)
  have hdrop (count : Nat) : (d.significant.drop count).all Text.isDigit = true :=
    List.all_eq_true.mpr fun c hc => List.all_eq_true.mp hsignificant c (List.mem_of_mem_drop hc)
  unfold layout
  split
  · exact ⟨List.cons_ne_nil _ _, rfl, by rw [List.all_append, hzeros, hsignificant]; rfl,
      .inl (List.append_ne_nil_of_right_ne_nil _ hne)⟩
  split
  · next hplain =>
      refine ⟨?_, ?_, ?_, .inl ?_⟩
      · refine List.append_ne_nil_of_left_ne_nil ?_ _
        simp only [ne_eq, List.take_eq_nil_iff, hne, or_false]
        omega
      · rw [List.all_append, htake, hzeros]
        rfl
      · dsimp only
        split
        · rfl
        · exact hdrop _
      · exact orZero_ne_nil _
  · refine ⟨?_, htake 1, hdrop 1, .inr rfl⟩
    simpa using hne

/-- Where the number is no further from one than four hundred powers of
ten, neither is its point. -/
theorem point_bounds {d : Decimal} (h : d.digits ≠ 0) (hlow : (10 : ℚ) ^ (-400 : Int) ≤ d.value)
    (hhigh : d.value < 10 ^ (400 : Int)) : -400 < d.point ∧ d.point ≤ 400 := by
  have hten : (0 : ℚ) < 10 ^ d.exponent := zpow_pos (by decide) _
  have hlength : 0 < (Nat.toDigits 10 d.digits).length := Nat.length_toDigits_pos
  have hbelow : d.digits < 10 ^ (Nat.toDigits 10 d.digits).length :=
    (Nat.length_toDigits_le_iff (by decide) hlength).mp (Nat.le_refl _)
  have habove : 10 ^ ((Nat.toDigits 10 d.digits).length - 1) ≤ d.digits := by
    by_cases hone : (Nat.toDigits 10 d.digits).length = 1
    · rw [hone]
      exact Nat.one_le_iff_ne_zero.mpr h
    · refine Nat.le_of_not_lt fun hless => ?_
      have hshort := (Nat.length_toDigits_le_iff (by decide) (by omega)).mpr hless
      omega
  unfold point
  constructor
  · refine (zpow_lt_zpow_iff_right₀ (show (1 : ℚ) < 10 by decide)).mp (lt_of_le_of_lt hlow ?_)
    rw [zpow_add₀ (by decide), zpow_natCast]
    exact mul_lt_mul_of_pos_right (by exact_mod_cast hbelow) hten
  · have hless : (((Nat.toDigits 10 d.digits).length - 1 : Nat) : Int) + d.exponent < 400 := by
      refine (zpow_lt_zpow_iff_right₀ (show (1 : ℚ) < 10 by decide)).mp (lt_of_le_of_lt ?_ hhigh)
      rw [zpow_add₀ (by decide), zpow_natCast]
      exact mul_le_mul_of_nonneg_right (by exact_mod_cast habove) hten.le
    omega

end Decimal

-- =============================================================== numbers

/-- The layout of a finite number without a sign. -/
def layout (d : Double) : Layout :=
  if d.mantissa = 0 then ⟨['0'], ['0'], none⟩ else (shortest d.mantissa d.exponent).layout

namespace IsPlain

variable {d : Double}

theorem view_eq (h : d.IsPlain) : d.view = .finite false d.mantissa d.exponent := by
  have hfield : d.magnitude / fieldWeight < 2047 :=
    Nat.div_lt_of_lt_mul (Nat.mul_comm _ _ ▸ h.finite)
  unfold mantissa exponent view
  dsimp only
  rw [if_neg hfield.ne, h.nonnegative]
  split <;> rfl

/-- The shortest decimal is no zero. -/
theorem shortest_digits (h : d.IsPlain) (hm : d.mantissa ≠ 0) :
    (shortest d.mantissa d.exponent).digits ≠ 0 := by
  intro hzero
  have hpos := (covers_shortest hm h.fits.1).pos hm
  rw [Decimal.value, hzero, Nat.cast_zero, zero_mul] at hpos
  exact lt_irrefl _ hpos

theorem layout_proper (h : d.IsPlain) : d.layout.Proper := by
  unfold layout
  split
  · exact ⟨List.cons_ne_nil _ _, rfl, rfl, .inl (List.cons_ne_nil _ _)⟩
  · next hm => exact Decimal.layout_proper (h.shortest_digits hm)

theorem text_eq (h : d.IsPlain) : d.text = .ofList d.layout.chars := by
  unfold text layout
  rw [h.view_eq]
  dsimp only
  rw [if_neg (by decide)]
  split
  · rfl
  · next hm => exact Decimal.text_eq (h.shortest_digits hm)

/-- The text is read as the number. -/
theorem readDecimal?_text (h : d.IsPlain) : readDecimal? false d.text.toList = some d := by
  have hproper := h.layout_proper
  rw [h.text_eq, String.toList_ofList]
  by_cases hm : d.mantissa = 0
  · have hlayout : d.layout = ⟨['0'], ['0'], none⟩ := if_pos hm
    rw [hlayout, h.eq_zero hm]
    rfl
  · have hlayout : d.layout = (shortest d.mantissa d.exponent).layout := if_neg hm
    have hcovers := covers_shortest hm h.fits.1
    have hdigits := h.shortest_digits hm
    obtain ⟨hlow, hhigh⟩ := hcovers.range hm h.fits.1
    have hpoint := Decimal.point_bounds hdigits hlow hhigh
    have hexponent : ∀ n ∈ d.layout.exponent, n.natAbs < 65536 := by
      rw [hlayout]
      unfold Decimal.layout
      intro n hn
      split at hn
      · cases hn
      split at hn
      · cases hn
      · cases hn
        omega
    rw [hproper.read hexponent]
    congr 1
    refine ofDecimal_covers h hm ?_
    show Covers d.mantissa d.exponent d.layout.value
    rw [hlayout, Decimal.layout_value hdigits]
    exact hcovers

/-- It begins with a digit. -/
theorem text_head (h : d.IsPlain) :
    ∃ c chars, d.text.toList = c :: chars ∧ Text.isDigit c = true := by
  have hproper := h.layout_proper
  obtain ⟨c, chars, hchars⟩ := List.exists_cons_of_ne_nil hproper.whole_ne
  refine ⟨c, chars ++ (d.layout.fractionText ++ d.layout.exponentText), ?_, ?_⟩
  · rw [h.text_eq, String.toList_ofList, Layout.chars, hchars]
    rfl
  · exact List.all_eq_true.mp hproper.whole c (hchars ▸ List.mem_cons_self)

theorem ofText?_text (h : d.IsPlain) : ofText? d.text = some d := by
  have hread := h.readDecimal?_text
  obtain ⟨c, chars, hchars, hdigit⟩ := h.text_head
  obtain ⟨hminus, hplus⟩ := digit_ne_sign hdigit
  unfold ofText?
  rw [hchars] at hread ⊢
  simp [hminus, hplus, hread]

/-- It is no integer. -/
theorem text_not_digits (h : d.IsPlain) : d.text.toList.all Text.isDigit = false := by
  have hproper := h.layout_proper
  rw [h.text_eq, String.toList_ofList, Layout.chars, List.all_append, List.all_append]
  rcases hproper.marked with hfraction | hexponent
  · rw [Layout.fractionText, if_neg hfraction, List.all_cons]
    simp [Text.isDigit]
  · obtain ⟨n, hn⟩ := Option.isSome_iff_exists.mp hexponent
    rw [Layout.exponentText, hn]
    simp [Text.isDigit]

/-- A scanner takes all of it. -/
theorem scanNumber_text (h : d.IsPlain) {rest : List Char}
    (hrest : ∀ c ∈ rest.head?, Lexer.breaks c = true) :
    Lexer.scanNumber (d.text.toList ++ rest) =
      .ok ⟨.number d.text, Text.byteSize d.text.toList, rest⟩ := by
  have hscan := h.layout_proper.scan hrest
  rw [h.text_eq, String.toList_ofList]
  exact hscan

end IsPlain

-- ================================================================= signs

/-- A number is finite. -/
def IsFinite (d : Double) : Prop :=
  d.magnitude < infinityMagnitude

/-- The bits of a number are its sign and its magnitude. -/
theorem ofMagnitude_self (d : Double) : ofMagnitude d.negative d.magnitude = d := by
  have hsize := d.bits.toNat_lt
  have hbits : (if d.negative = true then signWeight + d.magnitude else d.magnitude) =
      d.bits.toNat := by
    unfold negative magnitude
    simp only [decide_eq_true_eq]
    unfold signWeight
    split <;> omega
  unfold ofMagnitude
  rw [hbits]
  cases d with
  | mk bits => exact congrArg Double.mk UInt64.ofNat_toNat

theorem abs_bits (d : Double) : d.abs.negative = false ∧ d.abs.magnitude = d.magnitude :=
  bits_ofMagnitude false (Nat.mod_lt _ (by decide))

namespace IsFinite

variable {d : Double}

theorem abs (h : d.IsFinite) : d.abs.IsPlain :=
  ⟨d.abs_bits.1, by rw [d.abs_bits.2]; exact h⟩

end IsFinite

/-- A number is its size, or the opposite of that. -/
theorem abs_of_not_negative {d : Double} (h : d.negative = false) : d.abs = d := by
  have hself := d.ofMagnitude_self
  rw [h] at hself
  exact hself

theorem neg_abs {d : Double} (h : d.negative = true) : d.abs.neg = d := by
  have hself := d.ofMagnitude_self
  rw [h] at hself
  unfold neg
  rw [d.abs_bits.1, d.abs_bits.2]
  exact hself

/-- A sign stands before the text of the size. -/
theorem text_negative {d : Double} (h : d.IsFinite) (hnegative : d.negative = true) :
    d.text = "-" ++ d.abs.text := by
  have hfield : d.magnitude / fieldWeight ≠ 2047 :=
    Nat.ne_of_lt (Nat.div_lt_of_lt_mul (Nat.mul_comm _ _ ▸ h))
  unfold text view
  rw [d.abs_bits.1, d.abs_bits.2, hnegative]
  dsimp only
  rw [if_neg hfield, if_neg hfield]
  by_cases hzero : d.magnitude / fieldWeight = 0
  · rw [if_pos hzero, if_pos hzero]
    rfl
  · rw [if_neg hzero, if_neg hzero]
    rfl

end DialectDb.Double
