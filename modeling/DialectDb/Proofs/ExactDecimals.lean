/-
Floating point numbers as exact decimals. A finite number is a mantissa
times a power of two, and so a natural number over a power of ten, since
one half is five tenths. It is written as that number with an exponent
(`exactText`), and read back as itself: reading rounds, but what is read
is the number, and a quotient that is a number is rounded to it.
-/
import DialectDb.Proofs.Filling
import DialectDb.Proofs.Rounding

namespace DialectDb

/-- All characters of a kind are taken, up to one that is of another. -/
theorem Text.span_append {p : Char → Bool} {chars rest : List Char} (h : chars.all p = true)
    (hrest : ∀ c ∈ rest.head?, p c = false) : (chars ++ rest).span p = (chars, rest) := by
  have hall := List.all_eq_true.mp h
  rw [List.span_eq_takeWhile_dropWhile, List.takeWhile_append_of_pos hall,
    List.dropWhile_append_of_pos hall]
  cases rest with
  | nil => rw [List.takeWhile_nil, List.dropWhile_nil, List.append_nil]
  | cons c rest =>
      have hc := hrest c rfl
      rw [List.takeWhile_cons_of_neg (by simp [hc]), List.dropWhile_cons_of_neg (by simp [hc]),
        List.append_nil]

namespace Double

/-- A number that is finite and has no sign. -/
structure IsPlain (d : Double) : Prop where
  nonnegative : d.negative = false
  finite : d.magnitude < infinityMagnitude

/-- The mantissa of a finite number. -/
def mantissa (d : Double) : Nat :=
  match d.view with
  | .finite _ mantissa _ => mantissa
  | _ => 0

/-- The exponent of two that the mantissa goes with. -/
def exponent (d : Double) : Int :=
  match d.view with
  | .finite _ _ exponent => exponent
  | _ => 0

/-- The digits of a number, without its sign and without a point. -/
def exactDigits (d : Double) : Nat :=
  d.mantissa * power 2 d.exponent * power 5 (-d.exponent)

/-- How many of these digits stand behind the point. -/
def exactPlaces (d : Double) : Nat :=
  (-d.exponent).toNat

/-- The decimal that a number is exactly: its digits, and how far behind
the point they end. -/
def exactText (d : Double) : String :=
  toString d.exactDigits ++ "e-" ++ toString d.exactPlaces

-- ============================================================ quotients

/-- A quotient that is a number is not rounded. -/
theorem ofRatio_exact {num den m : Nat} {e : Int} (hden : den ≠ 0) (hm : m ≠ 0) (h : Fits m e)
    (hvalue : num * power 2 (-e) = m * (den * power 2 e)) (negative : Bool) :
    ofRatio negative num den =
      ofMagnitude negative (min infinityMagnitude ((e + 1074).toNat * fieldWeight + m)) := by
  have hquotient : (num : ℚ) / den = m * 2 ^ e := by
    have hpower : (power 2 (-e) : ℚ) ≠ 0 := Nat.cast_ne_zero.mpr (power_pos (by decide) _).ne'
    have hcast : (num : ℚ) * power 2 (-e) = m * (den * power 2 e) := by exact_mod_cast hvalue
    rw [power_cast (by decide) e, ← mul_assoc (den : ℚ), ← mul_assoc] at hcast
    rw [div_eq_iff (Nat.cast_ne_zero.mpr hden), mul_right_cancel₀ hpower hcast, mul_assoc,
      mul_comm (den : ℚ)]
    rfl
  exact ofRatio_covers hden hm h (hquotient ▸ covers_self hm e) negative

-- ============================================================== numbers

/-- The bits of a number are its exponent and its mantissa. -/
theorem IsPlain.fits {d : Double} (h : d.IsPlain) :
    Fits d.mantissa d.exponent ∧
      d.magnitude = (d.exponent + 1074).toNat * fieldWeight + d.mantissa := by
  have hsplit := Nat.div_add_mod d.magnitude fieldWeight
  have hfraction := Nat.mod_lt d.magnitude (show 0 < fieldWeight by decide)
  have hfield : d.magnitude / fieldWeight < 2047 :=
    Nat.div_lt_of_lt_mul (Nat.mul_comm _ _ ▸ h.finite)
  unfold mantissa exponent view
  dsimp only
  generalize d.magnitude % fieldWeight = fraction at hsplit hfraction ⊢
  generalize d.magnitude / fieldWeight = field at hsplit hfield ⊢
  rw [if_neg (Nat.ne_of_lt hfield)]
  by_cases hzero : field = 0
  · subst hzero
    refine ⟨⟨?_, Int.le_refl _, show (-1074 : Int) ≤ 971 by decide, .inl rfl⟩, ?_⟩
    · show fraction < 2 * fieldWeight
      omega
    · show d.magnitude = 0 * fieldWeight + fraction
      omega
  · rw [if_neg hzero]
    have hplace : ((field : Int) - 1075 + 1074).toNat + 1 = field := by omega
    refine ⟨⟨?_, ?_, ?_, .inr (Nat.le_add_right _ _)⟩, ?_⟩
    · show fieldWeight + fraction < 2 * fieldWeight
      omega
    · show -1074 ≤ (field : Int) - 1075
      omega
    · show (field : Int) - 1075 ≤ 971
      omega
    · show d.magnitude =
        ((field : Int) - 1075 + 1074).toNat * fieldWeight + (fieldWeight + fraction)
      rw [← Nat.add_assoc, ← Nat.succ_mul, Nat.succ_eq_add_one, hplace, Nat.mul_comm, hsplit]

theorem IsPlain.eq_ofMagnitude {d : Double} (h : d.IsPlain) :
    ofMagnitude false d.magnitude = d := by
  have hsmall : d.bits.toNat < signWeight := by
    have hnonnegative := h.nonnegative
    simp only [negative, decide_eq_false_iff_not, Nat.not_le] at hnonnegative
    exact hnonnegative
  unfold ofMagnitude magnitude
  rw [Nat.mod_eq_of_lt hsmall]
  cases d with
  | mk bits => exact congrArg Double.mk UInt64.ofNat_toNat

/-- Zero has the least exponent. -/
theorem IsPlain.eq_zero {d : Double} (h : d.IsPlain) (hm : d.mantissa = 0) : d = zero false := by
  obtain ⟨hfits, hmagnitude⟩ := h.fits
  have hleast : d.exponent = -1074 := by
    rcases hfits.normal with hleast | hnormal
    · exact hleast
    · rw [hm] at hnormal
      exact absurd hnormal (by decide)
  rw [hm, hleast] at hmagnitude
  rw [← h.eq_ofMagnitude, hmagnitude]
  rfl

/-- The digits are those of a quotient by a power of ten. -/
theorem exactDigits_mul (d : Double) :
    d.exactDigits * power 2 (-d.exponent) =
      d.mantissa * (10 ^ d.exactPlaces * power 2 d.exponent) := by
  have hten : 10 ^ d.exactPlaces = power 5 (-d.exponent) * power 2 (-d.exponent) :=
    Nat.mul_pow 5 2 _
  rw [hten, exactDigits]
  ac_rfl

/-- The digits are neither too many nor too few for the places. -/
theorem log2_exactDigits {d : Double} (h : d.IsPlain) (hm : d.mantissa ≠ 0) :
    d.exactDigits ≠ 0 ∧ 2 * d.exactPlaces ≤ d.exactDigits.log2 ∧
      d.exactDigits.log2 < 53 + 971 + 3 * d.exactPlaces := by
  obtain ⟨hfits, -⟩ := h.fits
  have hpowers : d.exactDigits = d.mantissa * 2 ^ d.exponent.toNat * 5 ^ d.exactPlaces := rfl
  have hne : d.exactDigits ≠ 0 := by
    rw [hpowers]
    exact Nat.mul_ne_zero (Nat.mul_ne_zero hm (Nat.two_pow_pos _).ne') (Nat.pow_pos (by decide)).ne'
  refine ⟨hne, (Nat.le_log2 hne).mpr ?_, (Nat.log2_lt hne).mpr ?_⟩
  · calc 2 ^ (2 * d.exactPlaces) = 1 * 4 ^ d.exactPlaces := by rw [Nat.pow_mul, Nat.one_mul]
      _ ≤ d.mantissa * 2 ^ d.exponent.toNat * 5 ^ d.exactPlaces :=
          Nat.mul_le_mul (Nat.pos_of_ne_zero (Nat.mul_ne_zero hm (Nat.two_pow_pos _).ne'))
            (Nat.pow_le_pow_left (by decide) _)
  · have hmantissa : d.mantissa < 2 ^ 53 := hfits.mantissa
    have hsize (top : Nat) (hexponent : d.exponent.toNat ≤ top) :
        d.exactDigits < 2 ^ (53 + top + 3 * d.exactPlaces) :=
      calc d.mantissa * 2 ^ d.exponent.toNat * 5 ^ d.exactPlaces
          ≤ d.mantissa * 2 ^ top * 8 ^ d.exactPlaces :=
            Nat.mul_le_mul (Nat.mul_le_mul_left _ (Nat.pow_le_pow_right (by decide) hexponent))
              (Nat.pow_le_pow_left (by decide) _)
        _ < 2 ^ 53 * 2 ^ top * 8 ^ d.exactPlaces :=
            Nat.mul_lt_mul_of_pos_right
              (Nat.mul_lt_mul_of_pos_right hmantissa (Nat.two_pow_pos top))
              (Nat.pow_pos (by decide))
        _ = 2 ^ (53 + top + 3 * d.exactPlaces) := by
            rw [Nat.pow_add 2 (53 + top), Nat.pow_add 2 53, Nat.pow_mul]
    exact hsize 971 (Int.toNat_le.mpr hfits.high)

/-- The decimal is read back. -/
theorem ofDecimal_exact {d : Double} (h : d.IsPlain) :
    ofDecimal false (toString d.exactDigits).toList (-(d.exactPlaces : Int)) = d := by
  obtain ⟨hfits, hmagnitude⟩ := h.fits
  unfold ofDecimal
  dsimp only
  rw [digitsValue_toString]
  by_cases hm : d.mantissa = 0
  · have hzero : d.exactDigits = 0 := by
      unfold exactDigits
      rw [hm, Nat.zero_mul, Nat.zero_mul]
    rw [if_pos hzero, h.eq_zero hm]
  · obtain ⟨hne, hfew, hmany⟩ := log2_exactDigits h hm
    have hplaces : d.exactPlaces ≤ 1074 := by
      have hlow := hfits.low
      unfold exactPlaces
      omega
    rw [if_neg hne, if_neg (by omega), if_neg (by omega), Int.neg_neg]
    have hone : power 10 (-(d.exactPlaces : Int)) = 1 :=
      congrArg (Nat.pow 10) (Int.toNat_neg_natCast _)
    have hden : power 10 (d.exactPlaces : Int) = 10 ^ d.exactPlaces := rfl
    rw [hone, Nat.mul_one, hden, ofRatio_exact (Nat.pow_pos (by decide)).ne' hm hfits
      (exactDigits_mul d), ← hmagnitude, Nat.min_eq_right (Nat.le_of_lt h.finite),
      h.eq_ofMagnitude]

-- ================================================================ texts

/-- More digits do not make less. -/
theorem le_appendDigits (n : Nat) (digits : List Char) : n ≤ appendDigits n digits := by
  rw [appendDigits_shift]
  exact Nat.le_add_right_of_le (Nat.le_mul_of_pos_right n (power_pos (by decide) _))

/-- Of an exponent that is not too great all digits count. -/
theorem exponentValue_eq {digits : List Char} (h : appendDigits 0 digits < 65536) :
    exponentValue digits = appendDigits 0 digits := by
  have hfold (n : Nat) (hn : appendDigits n digits < 65536) :
      digits.foldl (fun n c => if n < 65536 then 10 * n + (c.toNat - 48) else n) n =
        appendDigits n digits := by
    clear h
    induction digits generalizing n with
    | nil => rfl
    | cons c digits ih =>
        have hbelow : n < 65536 := Nat.lt_of_le_of_lt (le_appendDigits n _) hn
        rw [List.foldl_cons, if_pos hbelow]
        exact ih _ hn
  exact hfold 0 h

theorem toString_ne_nil (n : Nat) : (toString n).toList ≠ [] := by
  rw [Nat.toString_eq_repr, Nat.repr_eq_ofList_toDigits, String.toList_ofList]
  exact Nat.toDigits_ne_nil

theorem exponentValue_toString {n : Nat} (h : n < 65536) :
    exponentValue (toString n).toList = n := by
  have hall : appendDigits 0 (toString n).toList = n := by
    rw [← valueInParts_eq]
    exact digitsValue_toString n
  rw [exponentValue_eq (by rw [hall]; exact h), hall]

/-- The digits of a number are digits, and there are some. -/
theorem digits_toString (n : Nat) :
    ((toString n).toList.isEmpty || !(toString n).toList.all Text.isDigit) = false := by
  rw [isDigit_toString, List.isEmpty_eq_false_iff.mpr (toString_ne_nil n)]
  rfl

theorem readExponent?_places {n : Nat} (h : n < 65536) :
    readExponent? ('e' :: '-' :: (toString n).toList) = some (-(n : Int)) := by
  show (if ((toString n).toList.isEmpty || !(toString n).toList.all Text.isDigit) = true then none
    else some (-(exponentValue (toString n).toList : Int))) = some (-(n : Int))
  rw [digits_toString, exponentValue_toString h, if_neg (by decide)]

theorem exactText_toList (d : Double) :
    d.exactText.toList =
      (toString d.exactDigits).toList ++ 'e' :: '-' :: (toString d.exactPlaces).toList := by
  unfold exactText
  rw [String.toList_append, String.toList_append, List.append_assoc]
  rfl

theorem readDecimal?_exactText {d : Double} (h : d.IsPlain) :
    readDecimal? false d.exactText.toList = some d := by
  have hplaces : d.exactPlaces < 65536 := by
    have hlow := h.fits.1.low
    unfold exactPlaces
    omega
  have hwhole : (toString d.exactDigits).toList.isEmpty = false :=
    List.isEmpty_eq_false_iff.mpr (toString_ne_nil _)
  have hspan : ((toString d.exactDigits).toList ++
      'e' :: '-' :: (toString d.exactPlaces).toList).span Text.isDigit = (_, _) :=
    Text.span_append (isDigit_toString d.exactDigits) (by simp [Text.isDigit])
  unfold readDecimal?
  rw [exactText_toList, hspan]
  -- there is no point, and so no digit behind one
  show (if ((toString d.exactDigits).toList.isEmpty && true) = true then none
    else readExponent? ('e' :: '-' :: (toString d.exactPlaces).toList) >>= fun exponent =>
      some (ofDecimal false ((toString d.exactDigits).toList ++ []) (exponent - (0 : Nat)))) =
    some d
  rw [hwhole, if_neg (by decide), readExponent?_places hplaces, Option.bind_eq_bind,
    Option.bind_some, List.append_nil, Int.natCast_zero, Int.sub_zero, ofDecimal_exact h]

/-- What is written of a number is read as that number. -/
theorem ofText?_exactText {d : Double} (h : d.IsPlain) : ofText? d.exactText = some d := by
  have hread := readDecimal?_exactText h
  obtain ⟨c, rest, hdigits⟩ := List.exists_cons_of_ne_nil (toString_ne_nil d.exactDigits)
  have hfirst : Text.isDigit c = true :=
    List.all_eq_true.mp (isDigit_toString d.exactDigits) c (hdigits ▸ List.mem_cons_self)
  have hminus : c ≠ '-' := fun h => absurd (h ▸ hfirst) (by decide)
  have hplus : c ≠ '+' := fun h => absurd (h ▸ hfirst) (by decide)
  unfold ofText?
  rw [exactText_toList, hdigits, List.cons_append] at hread ⊢
  generalize rest ++ 'e' :: '-' :: (toString d.exactPlaces).toList = chars at hread ⊢
  simp [hminus, hplus, hread]

theorem exactText_not_digits (d : Double) : d.exactText.toList.all Text.isDigit = false := by
  rw [exactText_toList, List.all_append, List.all_cons]
  simp [Text.isDigit]

end Double

end DialectDb
