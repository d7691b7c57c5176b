/-
The shortest decimal of a number is read back as the number. The search
for it tests decimals for lying in the interval that rounds to the number
(`Covers`). Seventeen digits are always enough: the grid of that many
digits is finer than the interval, so one of the two neighbours on it is
a hit.
-/
import DialectDb.Proofs.ExactDecimals
import DialectDb.Proofs.TotalOrder

namespace DialectDb.Double

-- ============================================================ the search

theorem binary_scaled (m : Nat) (e t : Int) :
    ((m * power 2 e * power 10 (-t) : Nat) : ℚ) =
      m * 2 ^ e * (power 10 (-t) * power 2 (-e)) := by
  rw [Nat.cast_mul, Nat.cast_mul, power_cast (by decide) e]
  push_cast
  ring

theorem decimal_scaled (n : Nat) (e t : Int) :
    ((n * power 10 t * power 2 (-e) : Nat) : ℚ) =
      n * 10 ^ t * (power 10 (-t) * power 2 (-e)) := by
  rw [Nat.cast_mul, Nat.cast_mul, power_cast (by decide) t]
  push_cast
  ring

theorem scale_pos (e t : Int) : (0 : ℚ) < power 10 (-t) * power 2 (-e) :=
  mul_pos (Nat.cast_pos.mpr (power_pos (by decide) _)) (Nat.cast_pos.mpr (power_pos (by decide) _))

namespace Decimal

/-- The number that a decimal is. -/
def value (d : Decimal) : ℚ :=
  d.digits * 10 ^ d.exponent

/-- Numbers are compared in natural numbers as they are. -/
theorem compareScaled_eq (d : Decimal) (m : Nat) (e : Int) :
    d.compareScaled m e = compare d.value (m * 2 ^ e) := by
  have hpos := scale_pos e d.exponent
  have hleft : ((d.digits * power 10 d.exponent * power 2 (-e) : Nat) : ℚ) =
      d.value * (power 10 (-d.exponent) * power 2 (-e)) := decimal_scaled d.digits e d.exponent
  have hright := binary_scaled m e d.exponent
  have hlt : d.digits * power 10 d.exponent * power 2 (-e) <
      m * power 2 e * power 10 (-d.exponent) ↔ d.value < m * 2 ^ e := by
    rw [← Nat.cast_lt (α := ℚ), hleft, hright, mul_lt_mul_iff_left₀ hpos]
  have heq : d.digits * power 10 d.exponent * power 2 (-e) =
      m * power 2 e * power 10 (-d.exponent) ↔ d.value = m * 2 ^ e := by
    rw [← Nat.cast_inj (R := ℚ), hleft, hright, mul_left_inj' hpos.ne']
  unfold compareScaled
  rcases lt_trichotomy d.value (m * 2 ^ e) with h | h | h
  · rw [compare_lt_iff_lt.mpr h, compare_lt_iff_lt.mpr (hlt.mpr h)]
  · rw [compare_eq_iff_eq.mpr h, compare_eq_iff_eq.mpr (heq.mpr h)]
  · rw [compare_gt_iff_gt.mpr h]
    refine compare_gt_iff_gt.mpr (lt_of_le_of_ne ?_ fun he => h.ne (heq.mp he.symm).symm)
    exact Nat.le_of_not_lt fun hl => lt_asymm h (hlt.mp hl)

/-- The test is that of lying in the interval. -/
theorem roundsTo_iff {d : Decimal} {m : Nat} {e : Int} :
    d.roundsTo m e = true ↔ Covers m e d.value := by
  have htest : d.roundsTo m e = if m % 2 = 0
      then compare d.value ((4 * m - reachBelow m : Nat) * 2 ^ (e - 2)) != .lt &&
        compare d.value ((4 * m + 2 : Nat) * 2 ^ (e - 2)) != .gt
      else compare d.value ((4 * m - reachBelow m : Nat) * 2 ^ (e - 2)) == .gt &&
        compare d.value ((4 * m + 2 : Nat) * 2 ^ (e - 2)) == .lt := by
    rw [← compareScaled_eq, ← compareScaled_eq]
    rfl
  rw [htest]
  split
  · next heven =>
      rw [Bool.and_eq_true, bne_iff_ne, bne_iff_ne, compare_ge_iff_ge, compare_le_iff_le]
      exact ⟨fun ⟨hl, hh⟩ => ⟨hl, hh, fun ho => by omega⟩, fun h => ⟨h.low, h.high⟩⟩
  · next hodd =>
      rw [Bool.and_eq_true, beq_iff_eq, beq_iff_eq, compare_gt_iff_gt, compare_lt_iff_lt]
      exact ⟨fun ⟨hl, hh⟩ => ⟨hl.le, hh.le, fun _ => ⟨hl, hh⟩⟩, fun h => h.odd (by omega)⟩

end Decimal

/-- The last point of a grid up to a number. -/
def gridFloor (m : Nat) (e unit : Int) : Nat :=
  m * power 2 e * power 10 (-unit) / (power 2 (-e) * power 10 unit)

theorem gridFloor_bounds (m : Nat) (e unit : Int) :
    (gridFloor m e unit : ℚ) * 10 ^ unit ≤ m * 2 ^ e ∧
      (m : ℚ) * 2 ^ e < (gridFloor m e unit + 1) * 10 ^ unit := by
  have hpos := scale_pos e unit
  have hden : 0 < power 2 (-e) * power 10 unit :=
    Nat.mul_pos (power_pos (by decide) _) (power_pos (by decide) _)
  have hnum := binary_scaled m e unit
  have hscale (n : Nat) : ((n * (power 2 (-e) * power 10 unit) : Nat) : ℚ) =
      n * 10 ^ unit * (power 10 (-unit) * power 2 (-e)) := by
    rw [Nat.mul_comm (power 2 (-e)), ← Nat.mul_assoc, decimal_scaled]
  unfold gridFloor
  constructor
  · rw [← mul_le_mul_iff_left₀ hpos, ← hscale, ← hnum, Nat.cast_le]
    exact Nat.div_mul_le_self _ _
  · rw [← Nat.cast_add_one, ← mul_lt_mul_iff_left₀ hpos, ← hscale, ← hnum, Nat.cast_lt]
    exact Nat.lt_mul_of_div_lt (Nat.lt_succ_self _) hden

/-- What the search on a grid finds is in the interval. -/
theorem covers_of_onGrid {m count : Nat} {e length : Int} {d : Decimal}
    (h : onGrid? m e length count = some d) : Covers m e d.value := by
  refine Decimal.roundsTo_iff.mp ?_
  unfold onGrid? at h
  dsimp only at h
  split at h
  · next hlower hupper =>
      cases h
      split
      · exact hlower
      · exact hupper
  · next hlower _ =>
      cases h
      exact hlower
  · next _ hupper =>
      cases h
      exact hupper
  · cases h

/-- Where the units of a grid are less than the interval, one of the two
points next to the number is in it. -/
theorem roundsTo_neighbour {m : Nat} {e unit : Int} (hm : m ≠ 0)
    (h : (10 : ℚ) ^ unit < (reachBelow m + 2 : Nat) * 2 ^ (e - 2)) :
    Decimal.roundsTo ⟨gridFloor m e unit, unit⟩ m e = true ∨
      Decimal.roundsTo ⟨gridFloor m e unit + 1, unit⟩ m e = true := by
  have hreach := reachBelow_le m
  have hreach' : (0 : ℚ) ≤ reachBelow m := Nat.cast_nonneg _
  have hquarter : (0 : ℚ) < 2 ^ (e - 2) := zpow_pos (by decide) _
  have hlow : ((4 * m - reachBelow m : Nat) : ℚ) = (4 * m : Nat) - (reachBelow m : ℚ) :=
    Nat.cast_sub (by omega)
  have hhigh : ((4 * m + 2 : Nat) : ℚ) = (4 * m : Nat) + 2 := Nat.cast_add _ _
  have hcovers {d : Decimal} (hl : ((4 * m - reachBelow m : Nat) : ℚ) * 2 ^ (e - 2) < d.value)
      (hh : d.value < ((4 * m + 2 : Nat) : ℚ) * 2 ^ (e - 2)) : d.roundsTo m e = true :=
    Decimal.roundsTo_iff.mpr ⟨hl.le, hh.le, fun _ => ⟨hl, hh⟩⟩
  obtain ⟨hfloor, hnext⟩ := gridFloor_bounds m e unit
  generalize gridFloor m e unit = floor at hfloor hnext ⊢
  rw [hlow, hhigh] at hcovers
  rw [in_quarters] at hfloor hnext
  push_cast at h
  by_cases hnear : (4 * m : Nat) * 2 ^ (e - 2) - (floor : ℚ) * 10 ^ unit <
      reachBelow m * (2 : ℚ) ^ (e - 2)
  · refine .inl (hcovers ?_ ?_)
    · show _ < (floor : ℚ) * 10 ^ unit
      linarith
    · show (floor : ℚ) * 10 ^ unit < _
      linarith
  · have hnear := le_of_not_gt hnear
    refine .inr (hcovers ?_ ?_)
    · show _ < ((floor + 1 : Nat) : ℚ) * 10 ^ unit
      rw [Nat.cast_add_one, sub_mul]
      linarith [mul_nonneg hreach' hquarter.le]
    · show ((floor + 1 : Nat) : ℚ) * 10 ^ unit < _
      rw [Nat.cast_add_one]
      linarith

/-- So the search on such a grid finds a decimal. -/
theorem onGrid?_isSome {m count : Nat} {e length : Int} (hm : m ≠ 0)
    (h : (10 : ℚ) ^ (length - count) < (reachBelow m + 2 : Nat) * 2 ^ (e - 2)) :
    (onGrid? m e length count).isSome = true := by
  have hhit := roundsTo_neighbour hm h
  unfold onGrid?
  dsimp only
  unfold gridFloor at hhit
  generalize _ / (power 2 (-e) * power 10 (length - count)) = floor at hhit ⊢
  rcases hhit with hhit | hhit
  · rw [hhit]
    cases Decimal.roundsTo ⟨floor + 1, length - count⟩ m e <;> rfl
  · rw [hhit]
    cases Decimal.roundsTo ⟨floor, length - count⟩ m e <;> rfl

/-- Where ten to the `a` is two to the `b` or up to ten times as much,
`a / b` stands for the logarithm of two. -/
theorem ten_zpow_le {a b : Nat} (hb : b ≠ 0) (hlow : 2 ^ b ≤ 10 ^ a) (hhigh : 10 ^ a ≤ 2 ^ b * 10)
    {t l : Int} (h : b * t ≤ a * l) (hl : l ≤ b) : (10 : ℚ) ^ (t - 1) ≤ 2 ^ l := by
  have hten : (0 : ℚ) < 10 := by decide
  have hlow' : (2 : ℚ) ^ b ≤ 10 ^ a := by exact_mod_cast hlow
  have hhigh' : (10 : ℚ) ^ a ≤ 2 ^ b * 10 := by exact_mod_cast hhigh
  have hpow : ((10 : ℚ) ^ a) ^ l ≤ ((2 : ℚ) ^ b) ^ l * 10 ^ b := by
    rcases Int.le_total 0 l with hpositive | hnegative
    · obtain ⟨n, rfl⟩ := Int.eq_ofNat_of_zero_le hpositive
      rw [zpow_natCast, zpow_natCast]
      calc ((10 : ℚ) ^ a) ^ n ≤ (2 ^ b * 10) ^ n := pow_le_pow_left₀ (pow_nonneg hten.le _) hhigh' _
        _ = ((2 : ℚ) ^ b) ^ n * 10 ^ n := mul_pow _ _ _
        _ ≤ ((2 : ℚ) ^ b) ^ n * 10 ^ b :=
          mul_le_mul_of_nonneg_left (pow_le_pow_right₀ (by decide) (by omega)) (by positivity)
    · obtain ⟨n, hn⟩ := Int.eq_ofNat_of_zero_le (Int.neg_nonneg_of_nonpos hnegative)
      obtain rfl : l = -(n : Int) := by omega
      rw [zpow_neg, zpow_neg, zpow_natCast, zpow_natCast]
      calc (((10 : ℚ) ^ a) ^ n)⁻¹ ≤ (((2 : ℚ) ^ b) ^ n)⁻¹ :=
          inv_anti₀ (by positivity) (pow_le_pow_left₀ (by positivity) hlow' _)
        _ ≤ (((2 : ℚ) ^ b) ^ n)⁻¹ * 10 ^ b :=
          le_mul_of_one_le_right (by positivity) (one_le_pow₀ (by decide))
  refine (pow_le_pow_iff_left₀ (zpow_nonneg hten.le _) (zpow_nonneg (by decide) _) hb).mp ?_
  calc ((10 : ℚ) ^ (t - 1)) ^ b = 10 ^ (b * t) * (10 ^ b)⁻¹ := by
        rw [← zpow_natCast, ← zpow_natCast (10 : ℚ) b, ← zpow_neg, ← zpow_mul,
          ← zpow_add₀ hten.ne']
        congr 1
        ring
    _ ≤ 10 ^ (a * l) * (10 ^ b)⁻¹ := by
        refine mul_le_mul_of_nonneg_right (zpow_le_zpow_right₀ (by decide) h) (by positivity)
    _ = ((10 : ℚ) ^ a) ^ l * (10 ^ b)⁻¹ := by rw [zpow_mul, zpow_natCast]
    _ ≤ ((2 : ℚ) ^ b) ^ l := (mul_inv_le_iff₀ (by positivity)).mpr hpow
    _ = ((2 : ℚ) ^ l) ^ b := by
        rw [← zpow_natCast, ← zpow_natCast, ← zpow_mul, ← zpow_mul, mul_comm]

/-- The length is not too great. -/
theorem decimalLength_le {m : Nat} {e : Int} (hm : m ≠ 0) (hfits : Fits m e) :
    (10 : ℚ) ^ (decimalLength m e - 1) ≤ m * 2 ^ e := by
  have hbelow (t : Int) : (Decimal.compareScaled ⟨1, t⟩ m e == .gt) = true ↔
      (m : ℚ) * 2 ^ e < 10 ^ t := by
    rw [Decimal.compareScaled_eq, beq_iff_eq, compare_gt_iff_gt, Decimal.value, Nat.cast_one,
      one_mul]
  have hlog : m.log2 < 53 := (Nat.log2_lt hm).mpr hfits.mantissa
  have hhigh := hfits.high
  have hself : (2 : ℚ) ^ ((m.log2 : Int) + e) ≤ m * 2 ^ e := by
    rw [zpow_add₀ (by decide), zpow_natCast]
    refine mul_le_mul_of_nonneg_right ?_ (zpow_nonneg (by decide) e)
    exact_mod_cast Nat.log2_self_le hm
  unfold decimalLength
  dsimp only
  simp only [hbelow]
  split
  · refine le_trans (ten_zpow_le (a := 30103) (b := 100000) (by decide) (by decide +kernel)
      (by decide +kernel) ?_ ?_) hself
    · omega
    · omega
  split
  · next hestimate _ =>
      rw [add_sub_cancel_right]
      exact le_of_not_gt hestimate
  · next hnext =>
      refine le_of_eq_of_le ?_ (le_of_not_gt hnext)
      congr 1
      omega

/-- The units of the grid of seventeen digits are less than the
interval. -/
theorem grid_fine {m : Nat} {e : Int} (hm : m ≠ 0) (hfits : Fits m e) :
    (10 : ℚ) ^ (decimalLength m e - (16 + 1 : Nat)) < (reachBelow m + 2 : Nat) * 2 ^ (e - 2) := by
  have hquarter : (0 : ℚ) < 2 ^ (e - 2) := zpow_pos (by decide) _
  have hunit : (10 : ℚ) ^ (decimalLength m e - 1) =
      (10 ^ 16 : Nat) * 10 ^ (decimalLength m e - (16 + 1 : Nat)) := by
    have hsplit := zpow_add₀ (show (10 : ℚ) ≠ 0 by decide) (16 : Nat)
      (decimalLength m e - (16 + 1 : Nat))
    rw [zpow_natCast, ← Nat.cast_ofNat (R := ℚ) (n := 10), ← Nat.cast_pow] at hsplit
    rw [show decimalLength m e - 1 = (16 : Nat) + (decimalLength m e - (16 + 1 : Nat)) by omega]
    exact hsplit
  have hlength := decimalLength_le hm hfits
  rw [hunit, in_quarters] at hlength
  have hsmall : 4 * m < (reachBelow m + 2) * 10 ^ 16 := by
    have hmantissa := hfits.mantissa
    unfold reachBelow
    unfold fieldWeight at hmantissa ⊢
    split <;> omega
  refine lt_of_mul_lt_mul_left (lt_of_le_of_lt hlength ?_) (Nat.cast_nonneg (10 ^ 16))
  rw [← mul_assoc, ← Nat.cast_mul, Nat.mul_comm (10 ^ 16)]
  exact mul_lt_mul_of_pos_right (Nat.cast_lt.mpr hsmall) hquarter

/-- The shortest decimal is in the interval. -/
theorem covers_shortest {m : Nat} {e : Int} (hm : m ≠ 0) (hfits : Fits m e) :
    Covers m e (shortest m e).value := by
  have hlast := onGrid?_isSome hm (grid_fine hm hfits)
  have hfound : ((List.range 17).findSome? fun n =>
      onGrid? m e (decimalLength m e) (n + 1)).isSome = true :=
    List.findSome?_isSome_iff.mpr ⟨16, by simp, hlast⟩
  obtain ⟨d, hd⟩ := Option.isSome_iff_exists.mp hfound
  obtain ⟨n, -, hn⟩ := List.exists_of_findSome?_eq_some hd
  have hshortest : shortest m e = d := by
    unfold shortest
    dsimp only
    rw [hd]
    rfl
  rw [hshortest]
  exact covers_of_onGrid hn

-- ================================================================ reading

/-- The numbers are far from where digits of an exponent stop counting. -/
theorem Covers.range {m : Nat} {e : Int} {q : ℚ} (h : Covers m e q) (hm : m ≠ 0)
    (hfits : Fits m e) : (10 : ℚ) ^ (-400 : Int) ≤ q ∧ q < 10 ^ (400 : Int) := by
  have hlow := hfits.low
  have hhigh := hfits.high
  constructor
  · refine le_trans ?_ (h.lower hm)
    calc (10 : ℚ) ^ (-400 : Int) ≤ 2 ^ (-1075 : Int) := by decide +kernel
      _ ≤ 2 ^ (e - 1) := zpow_le_zpow_right₀ (by decide) (by omega)
  · refine lt_of_lt_of_le (h.upper hfits.mantissa) ?_
    calc (2 : ℚ) ^ (e + 53) ≤ 2 ^ (1024 : Int) := zpow_le_zpow_right₀ (by decide) (by omega)
      _ ≤ 10 ^ (400 : Int) := by decide +kernel

/-- A number has more decimal digits than a quarter of its binary ones,
and at most a third and one more. -/
theorem digits_log2 {n : Nat} (hn : n ≠ 0) :
    (10 : ℚ) ^ (n.log2 / 4) ≤ n ∧ (n : ℚ) < 10 ^ (n.log2 / 3 + 1) := by
  have hlow : 10 ^ (n.log2 / 4) ≤ n :=
    calc 10 ^ (n.log2 / 4) ≤ 16 ^ (n.log2 / 4) := Nat.pow_le_pow_left (by decide) _
      _ = 2 ^ (4 * (n.log2 / 4)) := (Nat.pow_mul 2 4 _).symm
      _ ≤ 2 ^ n.log2 := Nat.pow_le_pow_right (by decide) (Nat.mul_div_le _ _)
      _ ≤ n := Nat.log2_self_le hn
  have hhigh : n < 10 ^ (n.log2 / 3 + 1) :=
    calc n < 2 ^ (n.log2 + 1) := Nat.lt_log2_self
      _ ≤ 2 ^ (3 * (n.log2 / 3 + 1)) := Nat.pow_le_pow_right (by decide) (by omega)
      _ = 8 ^ (n.log2 / 3 + 1) := Nat.pow_mul 2 3 _
      _ ≤ 10 ^ (n.log2 / 3 + 1) := Nat.pow_le_pow_left (by decide) _
  exact ⟨by exact_mod_cast hlow, by exact_mod_cast hhigh⟩

/-- Digits and an exponent that are in the interval of a number are read
as the number. -/
theorem ofDecimal_covers {d : Double} (h : d.IsPlain) (hm : d.mantissa ≠ 0) {digits : List Char}
    {exponent : Int}
    (hcovers : Covers d.mantissa d.exponent (digitsValue digits * (10 : ℚ) ^ exponent)) :
    ofDecimal false digits exponent = d := by
  obtain ⟨hfits, hmagnitude⟩ := h.fits
  have hpos := hcovers.pos hm
  unfold ofDecimal
  dsimp only
  generalize digitsValue digits = n at hcovers hpos ⊢
  have hn : n ≠ 0 := by
    rintro rfl
    rw [Nat.cast_zero, zero_mul] at hpos
    exact lt_irrefl _ hpos
  have hten : (0 : ℚ) < 10 ^ exponent := zpow_pos (by decide) _
  obtain ⟨hleast, hmost⟩ := hcovers.range hm hfits
  obtain ⟨hfew, hmany⟩ := digits_log2 hn
  -- neither is it so great nor so small that its digits do not count
  have hsmall : ((n.log2 / 4 : Nat) : Int) + exponent < 400 := by
    refine (zpow_lt_zpow_iff_right₀ (show (1 : ℚ) < 10 by decide)).mp (lt_of_le_of_lt ?_ hmost)
    rw [zpow_add₀ (by decide), zpow_natCast]
    exact mul_le_mul_of_nonneg_right hfew hten.le
  have hlarge : -400 < ((n.log2 / 3 + 1 : Nat) : Int) + exponent := by
    refine (zpow_lt_zpow_iff_right₀ (show (1 : ℚ) < 10 by decide)).mp (lt_of_le_of_lt hleast ?_)
    rw [zpow_add₀ (by decide), zpow_natCast]
    exact mul_lt_mul_of_pos_right hmany hten
  rw [if_neg hn, if_neg (by omega), if_neg (by omega)]
  have hquotient : ((n * power 10 exponent : Nat) : ℚ) / (power 10 (-exponent) : Nat) =
      n * 10 ^ exponent := by
    have hpower : (power 10 (-exponent) : ℚ) ≠ 0 :=
      Nat.cast_ne_zero.mpr (power_pos (by decide) _).ne'
    rw [Nat.cast_mul, power_cast (by decide) exponent, ← mul_assoc, mul_div_cancel_right₀ _ hpower]
    rfl
  rw [ofRatio_covers (power_pos (by decide) _).ne' hm hfits (hquotient ▸ hcovers), ← hmagnitude,
    Nat.min_eq_right (Nat.le_of_lt h.finite), h.eq_ofMagnitude]

end DialectDb.Double
