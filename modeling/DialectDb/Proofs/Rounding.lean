/-
Which quotients are rounded to a number. A number is a mantissa times a
power of two, and the rational numbers that are rounded to it are those of
an interval (`Covers`); a quotient in the interval gives the number
(`ofRatio_covers`).

Below a power of two the numbers are twice as dense as above it. There
the interval is shorter on its lower side, and a quotient below the power
is rounded with the lesser exponent, up to twice the mantissa.
-/
import Mathlib.Algebra.Order.Field.Rat
import Mathlib.Data.Int.Log
import Mathlib.Data.Rat.Floor
import DialectDb.Double.Decimal

namespace DialectDb.Double

-- ============================================================ quotients

theorem power_pos {base : Nat} (h : 0 < base) (t : Int) : 0 < power base t :=
  Nat.pow_pos h

theorem power_cast {base : Nat} (h : base ≠ 0) (t : Int) :
    (power base t : ℚ) = (base : ℚ) ^ t * (power base (-t) : ℚ) := by
  have hbase : (base : ℚ) ≠ 0 := Nat.cast_ne_zero.mpr h
  have hcast (t : Int) : (power base t : ℚ) = (base : ℚ) ^ (t.toNat : Int) := by
    rw [power, Nat.pow_eq, Nat.cast_pow, zpow_natCast]
  have ht : (t.toNat : Int) = t + ((-t).toNat : Int) := by omega
  rw [hcast, hcast, ht, zpow_add₀ hbase]

/-- Whether a quotient reaches a power of two is decided in natural
numbers. -/
theorem le_power_iff {num den : Nat} (hden : den ≠ 0) (t : Int) :
    den * power 2 t ≤ num * power 2 (-t) ↔ (2 : ℚ) ^ t ≤ (num : ℚ) / den := by
  have hden' : (0 : ℚ) < den := Nat.cast_pos.mpr (Nat.pos_of_ne_zero hden)
  have hpower : (0 : ℚ) < (power 2 (-t) : ℚ) := Nat.cast_pos.mpr (power_pos (by decide) _)
  rw [le_div_iff₀ hden', ← Nat.cast_le (α := ℚ), Nat.cast_mul, Nat.cast_mul,
    power_cast (by decide) t, ← mul_assoc, mul_le_mul_iff_left₀ hpower, mul_comm (den : ℚ)]
  rfl

theorem floorLog_eq_log {num den : Nat} (hnum : num ≠ 0) (hden : den ≠ 0) :
    floorLog num den = Int.log 2 ((num : ℚ) / den) := by
  have hnum' : (0 : ℚ) < num := Nat.cast_pos.mpr (Nat.pos_of_ne_zero hnum)
  have hden' : (0 : ℚ) < den := Nat.cast_pos.mpr (Nat.pos_of_ne_zero hden)
  have hpositive : (0 : ℚ) < (num : ℚ) / den := div_pos hnum' hden'
  have htwo (a b : Int) : (2 : ℚ) ^ (a + b) = 2 ^ a * 2 ^ b := zpow_add₀ (by decide) a b
  have hlow {n : Nat} (h : n ≠ 0) : (2 : ℚ) ^ (n.log2 : Int) ≤ n := by
    rw [zpow_natCast]
    exact_mod_cast Nat.log2_self_le h
  have hhigh (n : Nat) : (n : ℚ) < 2 ^ ((n.log2 : Int) + 1) := by
    rw [← Nat.cast_succ, zpow_natCast]
    exact_mod_cast (Nat.lt_log2_self : n < 2 ^ (n.log2 + 1))
  -- the estimate is exact or one too great
  have hupper : Int.log 2 ((num : ℚ) / den) < (num.log2 : Int) - den.log2 + 1 := by
    refine (Int.lt_zpow_iff_log_lt (by decide) hpositive).mp ((div_lt_iff₀ hden').mpr ?_)
    calc (num : ℚ) < 2 ^ ((num.log2 : Int) + 1) := hhigh num
      _ = 2 ^ ((num.log2 : Int) - den.log2 + 1) * 2 ^ (den.log2 : Int) := by
          rw [← htwo]
          congr 1
          omega
      _ ≤ 2 ^ ((num.log2 : Int) - den.log2 + 1) * den :=
          mul_le_mul_of_nonneg_left (hlow hden) (zpow_nonneg (by decide) _)
  have hlower : (num.log2 : Int) - den.log2 - 1 ≤ Int.log 2 ((num : ℚ) / den) := by
    refine (Int.zpow_le_iff_le_log (by decide) hpositive).mp ((le_div_iff₀ hden').mpr ?_)
    calc ((2 : Nat) : ℚ) ^ ((num.log2 : Int) - den.log2 - 1) * den
        ≤ 2 ^ ((num.log2 : Int) - den.log2 - 1) * 2 ^ ((den.log2 : Int) + 1) :=
          mul_le_mul_of_nonneg_left (hhigh den).le (zpow_nonneg (by decide) _)
      _ = 2 ^ (num.log2 : Int) := by
          rw [← htwo]
          congr 1
          omega
      _ ≤ num := hlow hnum
  have hreaches : den * power 2 ((num.log2 : Int) - den.log2) ≤
      num * power 2 (-((num.log2 : Int) - den.log2)) ↔
      (num.log2 : Int) - den.log2 ≤ Int.log 2 ((num : ℚ) / den) := by
    rw [le_power_iff hden]
    exact Int.zpow_le_iff_le_log (by decide) hpositive
  unfold floorLog
  dsimp only
  split
  · next h =>
      have hle := hreaches.mp h
      omega
  · next h =>
      have hlt := mt hreaches.mpr h
      omega

/-- A mantissa with its exponent, as they are in the bits of a number. -/
structure Fits (m : Nat) (e : Int) : Prop where
  mantissa : m < 2 * fieldWeight
  low : -1074 ≤ e
  high : e ≤ 971
  normal : e = -1074 ∨ fieldWeight ≤ m

-- ============================================================== rounding

/-- A rational number is rounded to a natural number: it is at most one
half away, and less if the number is odd. -/
structure Nearest (n : Nat) (q : ℚ) : Prop where
  low : (n : ℚ) - 1 / 2 ≤ q
  high : q ≤ n + 1 / 2
  odd : n % 2 = 1 → (n : ℚ) - 1 / 2 < q ∧ q < n + 1 / 2

/-- Of a quotient, the same in natural numbers. -/
theorem Nearest.doubled {num den n : Nat} (hden : 0 < den) (h : Nearest n ((num : ℚ) / den)) :
    2 * (n * den) ≤ 2 * num + den ∧ 2 * num ≤ 2 * (n * den) + den ∧
      (n % 2 = 1 → 2 * (n * den) < 2 * num + den ∧ 2 * num < 2 * (n * den) + den) := by
  have hden' : (0 : ℚ) < den := Nat.cast_pos.mpr hden
  have hlow : (2 : ℚ) * (n * den) ≤ 2 * num + den := by
    have hq := (le_div_iff₀ hden').mp h.low
    linarith
  have hhigh : (2 : ℚ) * num ≤ 2 * (n * den) + den := by
    have hq := (div_le_iff₀ hden').mp h.high
    linarith
  refine ⟨by exact_mod_cast hlow, by exact_mod_cast hhigh, fun ho => ?_⟩
  obtain ⟨hl, hh⟩ := h.odd ho
  have hlow : (2 : ℚ) * (n * den) < 2 * num + den := by
    have hq := (lt_div_iff₀ hden').mp hl
    linarith
  have hhigh : (2 : ℚ) * num < 2 * (n * den) + den := by
    have hq := (div_lt_iff₀ hden').mp hh
    linarith
  exact ⟨by exact_mod_cast hlow, by exact_mod_cast hhigh⟩

theorem roundQuotient_eq {num den n : Nat} (hden : 0 < den) (h : Nearest n ((num : ℚ) / den)) :
    roundQuotient num den = n := by
  obtain ⟨hlow, hhigh, hodd⟩ := h.doubled hden
  have hsplit := Nat.div_add_mod num den
  have hrest := Nat.mod_lt num hden
  unfold roundQuotient
  dsimp only
  generalize num / den = floor at hsplit ⊢
  generalize num % den = rest at hsplit hrest ⊢
  -- the number is the floor or one more
  have hle : floor ≤ n := by
    by_contra hgt
    have hstep : den * (n + 1) ≤ den * floor := Nat.mul_le_mul_left _ (Nat.lt_of_not_le hgt)
    rw [Nat.mul_succ, Nat.mul_comm den n] at hstep
    omega
  have hge : n ≤ floor + 1 := by
    by_contra hgt
    have hstep : (floor + 2) * den ≤ n * den := Nat.mul_le_mul_right _ (Nat.lt_of_not_le hgt)
    rw [Nat.add_mul, Nat.mul_comm floor den] at hstep
    omega
  rcases Nat.eq_or_lt_of_le hle with rfl | hlt
  · rw [Nat.mul_comm floor den] at hhigh hodd
    rw [if_pos]
    simp only [Bool.or_eq_true, decide_eq_true_eq, Bool.and_eq_true, beq_iff_eq]
    omega
  · obtain rfl : n = floor + 1 := by omega
    have hnext : (floor + 1) * den = den * floor + den := by
      rw [Nat.add_one_mul, Nat.mul_comm floor]
    rw [hnext] at hlow hodd
    rw [if_neg]
    simp only [Bool.or_eq_true, decide_eq_true_eq, Bool.and_eq_true, beq_iff_eq]
    omega

-- ============================================================ intervals

/-- How far the interval of a mantissa reaches down, in quarters of its
unit. -/
def reachBelow (m : Nat) : Nat :=
  if m = fieldWeight then 1 else 2

theorem reachBelow_le (m : Nat) : reachBelow m ≤ 2 := by
  unfold reachBelow
  split <;> decide

/-- The interval of the rational numbers that are rounded to a mantissa
times a power of two. Its ends, in quarters of the unit, belong to it if
the mantissa is even. -/
structure Covers (m : Nat) (e : Int) (q : ℚ) : Prop where
  low : ((4 * m - reachBelow m : Nat) : ℚ) * 2 ^ (e - 2) ≤ q
  high : q ≤ ((4 * m + 2 : Nat) : ℚ) * 2 ^ (e - 2)
  odd : m % 2 = 1 → ((4 * m - reachBelow m : Nat) : ℚ) * 2 ^ (e - 2) < q ∧
    q < ((4 * m + 2 : Nat) : ℚ) * 2 ^ (e - 2)

section

variable {m : Nat} {e : Int} {q : ℚ}

theorem two_zpow_eq {e t : Int} (n : Nat) (h : t = e + n) :
    (2 : ℚ) ^ t = (2 ^ n : Nat) * 2 ^ e := by
  rw [h, zpow_add₀ (by decide), zpow_natCast, mul_comm, Nat.cast_pow]
  rfl

/-- A number in quarters of its unit. -/
theorem in_quarters (m : Nat) (e : Int) : (m : ℚ) * 2 ^ e = (4 * m : Nat) * 2 ^ (e - 2) := by
  rw [two_zpow_eq 2 (show e = e - 2 + (2 : Nat) by omega)]
  push_cast
  ring

/-- At least a quarter of a unit lies below. -/
theorem Covers.lower (h : Covers m e q) (hm : m ≠ 0) : (2 : ℚ) ^ (e - 1) ≤ q := by
  have hreach := reachBelow_le m
  refine le_trans ?_ h.low
  rw [two_zpow_eq 1 (show e - 1 = e - 2 + (1 : Nat) by omega)]
  refine mul_le_mul_of_nonneg_right ?_ (zpow_nonneg (by decide) _)
  exact_mod_cast (show 2 ^ 1 ≤ 4 * m - reachBelow m by omega)

theorem Covers.pos (h : Covers m e q) (hm : m ≠ 0) : 0 < q :=
  lt_of_lt_of_le (zpow_pos (by decide) _) (h.lower hm)

theorem Covers.upper (h : Covers m e q) (hm : m < 2 * fieldWeight) : q < (2 : ℚ) ^ (e + 53) := by
  refine lt_of_le_of_lt h.high ?_
  rw [two_zpow_eq 55 (show e + 53 = e - 2 + (55 : Nat) by omega)]
  refine mul_lt_mul_of_pos_right ?_ (zpow_pos (by decide) _)
  have hbound : 4 * m + 2 < 2 ^ 55 := by
    unfold fieldWeight at hm
    omega
  exact_mod_cast hbound

/-- The number itself is in the interval. -/
theorem covers_self (hm : m ≠ 0) (e : Int) : Covers m e (m * 2 ^ e) := by
  have hreach : reachBelow m ≠ 0 := by
    unfold reachBelow
    split <;> decide
  have hquarter : (0 : ℚ) < 2 ^ (e - 2) := zpow_pos (by decide) _
  rw [in_quarters]
  have hlow : ((4 * m - reachBelow m : Nat) : ℚ) * 2 ^ (e - 2) < (4 * m : Nat) * 2 ^ (e - 2) :=
    mul_lt_mul_of_pos_right (Nat.cast_lt.mpr (by omega)) hquarter
  have hhigh : ((4 * m : Nat) : ℚ) * 2 ^ (e - 2) < (4 * m + 2 : Nat) * 2 ^ (e - 2) :=
    mul_lt_mul_of_pos_right (Nat.cast_lt.mpr (by omega)) hquarter
  exact ⟨hlow.le, hhigh.le, fun _ => ⟨hlow, hhigh⟩⟩

/-- In units of the exponent it is next to the mantissa. -/
theorem Covers.nearest (h : Covers m e q) (hm : m ≠ 0) : Nearest m (q / 2 ^ e) := by
  have hreach := reachBelow_le m
  have hunit : (0 : ℚ) < 2 ^ e := zpow_pos (by decide) e
  have hquarter : (2 : ℚ) ^ e = 4 * 2 ^ (e - 2) := by
    exact_mod_cast two_zpow_eq 2 (show e = e - 2 + (2 : Nat) by omega)
  have hlow : ((m : ℚ) - 1 / 2) * 2 ^ e ≤ ((4 * m - reachBelow m : Nat) : ℚ) * 2 ^ (e - 2) := by
    rw [Nat.cast_sub (by omega), hquarter]
    have hreach' : (reachBelow m : ℚ) ≤ 2 := by exact_mod_cast hreach
    push_cast
    nlinarith [zpow_pos (show (0 : ℚ) < 2 by decide) (e - 2)]
  have hhigh : ((4 * m + 2 : Nat) : ℚ) * 2 ^ (e - 2) = ((m : ℚ) + 1 / 2) * 2 ^ e := by
    rw [hquarter]
    push_cast
    ring
  refine ⟨(le_div_iff₀ hunit).mpr (hlow.trans h.low), (div_le_iff₀ hunit).mpr (hhigh ▸ h.high),
    fun ho => ?_⟩
  obtain ⟨hl, hh⟩ := h.odd ho
  exact ⟨(lt_div_iff₀ hunit).mpr (lt_of_le_of_lt hlow hl), (div_lt_iff₀ hunit).mpr (hhigh ▸ hh)⟩

/-- Below a power of two it is next to twice the mantissa in units of
the lesser exponent. -/
theorem Covers.nearest_below (h : Covers fieldWeight e q) (hq : q < 2 ^ (e + 52)) :
    Nearest (2 * fieldWeight) (q / 2 ^ (e - 1)) := by
  have hunit : (0 : ℚ) < 2 ^ (e - 1) := zpow_pos (by decide) _
  have hlow := h.low
  have hhalf : (2 : ℚ) ^ (e - 1) = 2 * 2 ^ (e - 2) := by
    exact_mod_cast two_zpow_eq 1 (show e - 1 = e - 2 + (1 : Nat) by omega)
  have htop : (2 : ℚ) ^ (e + 52) = (2 * fieldWeight : Nat) * 2 ^ (e - 1) :=
    two_zpow_eq 53 (by omega)
  refine ⟨(le_div_iff₀ hunit).mpr ?_, ?_, fun ho => absurd ho (by decide)⟩
  · refine le_trans (le_of_eq ?_) hlow
    rw [hhalf]
    show (((2 * fieldWeight : Nat) : ℚ) - 1 / 2) * (2 * 2 ^ (e - 2)) =
      ((4 * fieldWeight - 1 : Nat) : ℚ) * 2 ^ (e - 2)
    rw [Nat.cast_sub (by decide)]
    push_cast
    ring
  · have hlt := (div_lt_iff₀ hunit).mpr (htop ▸ hq)
    linarith

end

-- ============================================================= numbers

theorem scaled_quotient {num den : Nat} (t : Int) :
    ((num * power 2 (-t) : Nat) : ℚ) / (den * power 2 t : Nat) = (num : ℚ) / den / 2 ^ t := by
  have hpower : (power 2 (-t) : ℚ) ≠ 0 := Nat.cast_ne_zero.mpr (power_pos (by decide) _).ne'
  rw [Nat.cast_mul, Nat.cast_mul, power_cast (by decide) t, ← mul_assoc,
    mul_div_mul_right _ _ hpower, div_div]
  rfl

/-- The unit that a quotient in the interval is rounded in is that of the
mantissa, or the quotient is below a power of two. -/
theorem Covers.unit {num den m : Nat} {e : Int} (h : Covers m e ((num : ℚ) / den)) (hden : den ≠ 0)
    (hnum : num ≠ 0) (hm : m ≠ 0) (hfits : Fits m e) :
    max (floorLog num den - 52) (-1074) = e ∨
      max (floorLog num den - 52) (-1074) = e - 1 ∧ m = fieldWeight ∧ -1074 < e ∧
        (num : ℚ) / den < 2 ^ (e + 52) := by
  have hpos := h.pos hm
  have hleast := hfits.low
  have hupper : Int.log 2 ((num : ℚ) / den) < e + 53 :=
    (Int.lt_zpow_iff_log_lt (by decide) hpos).mp (h.upper hfits.mantissa)
  have hquarters {n : Nat} (k : Nat) (hk : 2 ^ k ≤ n) :
      (2 : ℚ) ^ (e + (k - 2 : Int)) ≤ (n : ℚ) * 2 ^ (e - 2) := by
    rw [two_zpow_eq k (show e + (k - 2 : Int) = e - 2 + k by omega)]
    exact mul_le_mul_of_nonneg_right (by exact_mod_cast hk) (zpow_nonneg (by decide) _)
  have hlog (t : Int) (ht : (2 : ℚ) ^ t ≤ (num : ℚ) / den) : t ≤ Int.log 2 ((num : ℚ) / den) :=
    (Int.zpow_le_iff_le_log (by decide) hpos).mp ht
  rw [floorLog_eq_log hnum hden]
  by_cases hleast : e = -1074
  · exact .inl (by omega)
  by_cases hreaches : (2 : ℚ) ^ (e + 52) ≤ (num : ℚ) / den
  · have hreached := hlog _ hreaches
    exact .inl (by omega)
  have hnormal := hfits.normal.resolve_left hleast
  have hmantissa : m = fieldWeight := by
    by_contra hne
    have hreach := reachBelow_le m
    unfold fieldWeight at hnormal hne
    exact hreaches ((hquarters 54 (by omega)).trans h.low)
  subst hmantissa
  have hreached := hlog _ ((hquarters 53 (by decide)).trans h.low)
  have hbelow := (Int.lt_zpow_iff_log_lt (b := 2) (by decide) hpos).mp (lt_of_not_ge hreaches)
  exact .inr ⟨by omega, rfl, by omega, lt_of_not_ge hreaches⟩

/-- A quotient in the interval of a number is rounded to it. -/
theorem ofRatio_covers {num den m : Nat} {e : Int} (hden : den ≠ 0) (hm : m ≠ 0) (hfits : Fits m e)
    (h : Covers m e ((num : ℚ) / den)) (negative : Bool) :
    ofRatio negative num den =
      ofMagnitude negative (min infinityMagnitude ((e + 1074).toNat * fieldWeight + m)) := by
  have hpos := h.pos hm
  have hnum : num ≠ 0 := by
    rintro rfl
    rw [Nat.cast_zero, zero_div] at hpos
    exact lt_irrefl _ hpos
  have hdivisor (t : Int) : 0 < den * power 2 t :=
    Nat.mul_pos (Nat.pos_of_ne_zero hden) (power_pos (by decide) t)
  have hunit := h.unit hden hnum hm hfits
  unfold ofRatio
  rw [if_neg hnum]
  dsimp only
  rcases hunit with hunit | ⟨hunit, rfl, hnext, hbelow⟩
  · rw [hunit, roundQuotient_eq (hdivisor e) (scaled_quotient e ▸ h.nearest hm)]
  · have hplace : (e + 1074).toNat * fieldWeight + fieldWeight =
        (e - 1 + 1074).toNat * fieldWeight + 2 * fieldWeight := by
      rw [show (e + 1074).toNat = (e - 1 + 1074).toNat + 1 by omega, Nat.succ_mul, Nat.two_mul,
        Nat.add_assoc]
    have hround := roundQuotient_eq (hdivisor (e - 1))
      (scaled_quotient (e - 1) ▸ h.nearest_below hbelow)
    rw [hunit, hround, hplace]

end DialectDb.Double
