/-
What becomes of an integer that is converted to a floating point number.
It is rounded, and the rounded integer is on the same side of every
floating point number as the integer itself, or is that number
(`compare?_ofInt`). The reason is that the integers next to a floating
point number, below and above it, are floating point numbers too, and
rounding keeps order and does not touch these.
-/
import DialectDb.Proofs.ExactNumbers
import DialectDb.Proofs.TotalOrder

namespace DialectDb.Double

-- ============================================================ rounding

/-- How many units one is. -/
def unitsInOne : Nat := 2 ^ 1074

theorem unitsInOne_pos : 0 < unitsInOne := by
  rw [unitsInOne]
  positivity

/-- A natural number that is a floating point number: zeros at its end
apart, it has no more binary digits than a mantissa, and it is not too
great. -/
structure IsShort (n : Nat) : Prop where
  digits : 2 ^ (n.log2 - 52) ∣ n
  size : n.log2 < 1024

theorem isShort_mul {m t : Nat} (h : m < 2 * fieldWeight) (ht : t ≤ 971) : IsShort (m * 2 ^ t) := by
  by_cases hm : m = 0
  · rw [hm, Nat.zero_mul]
    exact ⟨Nat.dvd_zero _, by decide⟩
  · have hne : m * 2 ^ t ≠ 0 := Nat.mul_ne_zero hm (Nat.two_pow_pos t).ne'
    have hlog : (m * 2 ^ t).log2 < 53 + t := by
      rw [Nat.log2_lt hne, Nat.pow_add]
      exact Nat.mul_lt_mul_of_pos_right h (Nat.two_pow_pos t)
    exact ⟨Nat.dvd_mul_left_of_dvd (Nat.pow_dvd_pow 2 (by omega)) m, by omega⟩

theorem isShort_of_le {n : Nat} (h : n ≤ 2 * fieldWeight) : IsShort n := by
  rcases Nat.lt_or_eq_of_le h with hlt | rfl
  · exact Nat.mul_one n ▸ isShort_mul hlt (Nat.zero_le _)
  · exact isShort_mul (m := fieldWeight) (t := 1) (by decide) (by decide)

/-- Its mantissa is a whole one, which has 53 bits and stands in the
fraction field without the first of them. -/
theorem IsShort.mantissa {n : Nat} (h : IsShort n) (hn : n ≠ 0) :
    ∃ m, fieldWeight ≤ m ∧ m < 2 * fieldWeight ∧
      n * 2 ^ (52 - n.log2) = m * 2 ^ (n.log2 - 52) ∧
      naturalMagnitude n = fieldWeight * (n.log2 + 1023) + (m - fieldWeight) := by
  have hlog := h.size
  have hden : 0 < 2 ^ (n.log2 - 52) := Nat.two_pow_pos _
  obtain ⟨m, hm⟩ : ∃ m, n * 2 ^ (52 - n.log2) = m * 2 ^ (n.log2 - 52) := by
    obtain ⟨q, hq⟩ := h.digits
    refine ⟨q * 2 ^ (52 - n.log2), ?_⟩
    rw [Nat.mul_right_comm q, Nat.mul_comm q, ← hq]
  have hround : roundQuotient (n * 2 ^ (52 - n.log2)) (2 ^ (n.log2 - 52)) = m := by
    rw [hm, roundQuotient, Nat.mul_mod_left, Nat.mul_div_cancel _ hden]
    simp [hden]
  have hlow := (mantissa_bounds hn).1
  rw [hround] at hlow
  have hhigh : m < 2 * fieldWeight := by
    refine Nat.lt_of_mul_lt_mul_right (a := 2 ^ (n.log2 - 52)) ?_
    calc m * 2 ^ (n.log2 - 52)
        = n * 2 ^ (52 - n.log2) := hm.symm
      _ < 2 ^ (n.log2 + 1) * 2 ^ (52 - n.log2) :=
          Nat.mul_lt_mul_of_pos_right Nat.lt_log2_self (Nat.two_pow_pos _)
      _ = 2 ^ 53 * 2 ^ (n.log2 - 52) := by
          rw [← Nat.pow_add, ← Nat.pow_add]
          congr 1
          omega
  refine ⟨m, hlow, hhigh, hm, ?_⟩
  rw [naturalMagnitude, if_neg hn, hround]
  unfold infinityMagnitude fieldWeight at *
  omega

/-- Such a number is not rounded. -/
theorem unitCount_naturalMagnitude {n : Nat} (h : IsShort n) :
    unitCount (naturalMagnitude n) = n * unitsInOne := by
  by_cases hn : n = 0
  · rw [hn, Nat.zero_mul]
    decide
  obtain ⟨m, hlow, hhigh, hm, hmagnitude⟩ := h.mantissa hn
  have hdiv : naturalMagnitude n / fieldWeight = n.log2 + 1023 := by
    rw [hmagnitude, Nat.mul_add_div (by decide), Nat.div_eq_of_lt (by omega), Nat.add_zero]
  have hmod : naturalMagnitude n % fieldWeight = m - fieldWeight := by
    rw [hmagnitude, Nat.mul_add_mod, Nat.mod_eq_of_lt (by omega)]
  rw [unitCount, hdiv, hmod, if_neg (by omega), Nat.add_sub_cancel' hlow]
  refine Nat.eq_of_mul_eq_mul_right (Nat.two_pow_pos (52 - n.log2)) ?_
  rw [Nat.mul_right_comm n, hm, unitsInOne, Nat.mul_assoc, Nat.mul_assoc, ← Nat.pow_add,
    ← Nat.pow_add]
  congr 2
  omega

/-- Nor does it become an infinity. -/
theorem naturalMagnitude_lt {n : Nat} (h : IsShort n) : naturalMagnitude n < infinityMagnitude := by
  have hlog := h.size
  by_cases hn : n = 0
  · rw [hn]
    decide
  · obtain ⟨m, hlow, hhigh, -, hmagnitude⟩ := h.mantissa hn
    unfold infinityMagnitude fieldWeight at *
    omega

/-- A finite magnitude is that of such a number, or less than 2 to the
52. -/
theorem whole_or_small {g : Nat} (h : g < infinityMagnitude) :
    unitCount g < fieldWeight * unitsInOne ∨ ∃ k, IsShort k ∧ unitCount g = k * unitsInOne := by
  have hfield : g / fieldWeight < 2047 := Nat.div_lt_of_lt_mul (Nat.mul_comm _ _ ▸ h)
  have hrest := Nat.mod_lt g (show 0 < fieldWeight by decide)
  by_cases hsmall : g / fieldWeight ≤ 1074
  · refine .inl (Nat.lt_of_lt_of_le (unitCount_lt g) ?_)
    rw [unitsInOne]
    gcongr
    decide
  · have hmantissa : fieldWeight + g % fieldWeight < 2 * fieldWeight := by omega
    refine .inr ⟨(fieldWeight + g % fieldWeight) * 2 ^ (g / fieldWeight - 1075),
      isShort_mul hmantissa (by omega), ?_⟩
    rw [unitCount, if_neg (by omega), unitsInOne, Nat.mul_assoc, ← Nat.pow_add]
    congr 2
    omega

/-- A natural number up to a magnitude is not rounded to a greater one. -/
theorem naturalMagnitude_le_of_units {n g : Nat} (hg : g < infinityMagnitude)
    (h : n * unitsInOne ≤ unitCount g) : naturalMagnitude n ≤ g := by
  have hbelow (k : Nat) (hk : IsShort k) (hn : n ≤ k) (hunits : k * unitsInOne ≤ unitCount g) :
      naturalMagnitude n ≤ g := by
    refine Nat.le_trans (naturalMagnitude_mono hn) (unitCount_strictMono.le_iff_le.mp ?_)
    rw [unitCount_naturalMagnitude hk]
    exact hunits
  rcases whole_or_small hg with hsmall | ⟨k, hk, hunits⟩
  · have hn : n < fieldWeight := Nat.lt_of_mul_lt_mul_right (Nat.lt_of_le_of_lt h hsmall)
    exact hbelow n (isShort_of_le (by omega)) (Nat.le_refl n) h
  · rw [hunits] at h
    exact hbelow k hk (Nat.le_of_mul_le_mul_right h unitsInOne_pos) hunits.ge

/-- Nor is one from a magnitude on rounded to a lesser one. -/
theorem le_naturalMagnitude_of_units {n g : Nat} (hg : g < infinityMagnitude)
    (h : unitCount g ≤ n * unitsInOne) : g ≤ naturalMagnitude n := by
  have habove (k : Nat) (hk : IsShort k) (hn : k ≤ n) (hunits : unitCount g ≤ k * unitsInOne) :
      g ≤ naturalMagnitude n := by
    refine Nat.le_trans (unitCount_strictMono.le_iff_le.mp ?_) (naturalMagnitude_mono hn)
    rw [unitCount_naturalMagnitude hk]
    exact hunits
  rcases whole_or_small hg with hsmall | ⟨k, hk, hunits⟩
  · rcases Nat.le_total n fieldWeight with hn | hn
    · exact habove n (isShort_of_le (by omega)) (Nat.le_refl n) h
    · exact habove fieldWeight (isShort_of_le (by decide)) hn hsmall.le
  · rw [hunits] at h
    exact habove k hk (Nat.le_of_mul_le_mul_right h unitsInOne_pos) hunits.le

-- ============================================================ integers

section
variable {i rank : Int}

theorem rank_ofInt (i : Int) : (ofInt i).rank =
    if i < 0 then -(naturalMagnitude i.natAbs : Int) else naturalMagnitude i.natAbs := by
  simp only [Double.rank, (bits_ofInt i).1, (bits_ofInt i).2, decide_eq_true_eq]

theorem isNaN_ofInt (i : Int) : (ofInt i).isNaN = false := by
  simpa [isNaN, (bits_ofInt i).2] using naturalMagnitude_le i.natAbs

theorem rank_ofInt_neg (i : Int) : (ofInt (-i)).rank = -(ofInt i).rank := by
  have hzero : naturalMagnitude 0 = 0 := rfl
  rw [rank_ofInt, rank_ofInt, Int.natAbs_neg]
  rcases lt_trichotomy i 0 with h | rfl | h
  · rw [if_neg (show ¬-i < 0 by omega), if_pos h, Int.neg_neg]
  · simp [hzero]
  · rw [if_pos (show -i < 0 by omega), if_neg (show ¬i < 0 by omega)]

/-- An integer up to a place is not rounded past it. -/
theorem rank_ofInt_le_of_units (hrank : rank.natAbs < infinityMagnitude)
    (h : i * unitsInOne ≤ signedUnits rank) : (ofInt i).rank ≤ rank := by
  have hone := unitsInOne_pos
  have hunits : signedUnits rank = if rank < 0 then -(unitCount rank.natAbs : Int)
      else unitCount rank.natAbs := rfl
  rw [rank_ofInt]
  by_cases hi : i < 0
  · have hsize : i * unitsInOne = -((i.natAbs * unitsInOne : Nat) : Int) := by
      rw [Nat.cast_mul, ← Int.neg_mul]
      congr 1
      omega
    rw [if_pos hi]
    by_cases hnegative : rank < 0
    · rw [if_pos hnegative] at hunits
      have hle := le_naturalMagnitude_of_units (n := i.natAbs) hrank (by omega)
      omega
    · omega
  · have hsize : i * unitsInOne = ((i.natAbs * unitsInOne : Nat) : Int) := by
      rw [Nat.cast_mul]
      congr 1
      omega
    rw [if_neg hi]
    by_cases hnegative : rank < 0
    · -- the units of a negative number are less than none
      have hlt := signedUnits_lt hnegative
      have hnone : signedUnits 0 = 0 := by decide
      omega
    · rw [if_neg hnegative] at hunits
      have hle := naturalMagnitude_le_of_units (n := i.natAbs) hrank (by omega)
      omega

theorem le_rank_ofInt_of_units (hrank : rank.natAbs < infinityMagnitude)
    (h : signedUnits rank ≤ i * unitsInOne) : rank ≤ (ofInt i).rank := by
  have hle : (ofInt (-i)).rank ≤ -rank := by
    refine rank_ofInt_le_of_units (by omega) ?_
    rw [signedUnits_neg, Int.neg_mul]
    exact Int.neg_le_neg h
  rw [rank_ofInt_neg] at hle
  omega

/-- The number at a place between the infinities, in units. -/
theorem ofRank_between (hrank : rank.natAbs < infinityMagnitude) :
    ofRank rank = .ofRat (signedUnits rank / unitsInOne) := by
  have hone : (2 : ℚ) ^ (-1074 : Int) = (unitsInOne : ℚ)⁻¹ := by
    rw [zpow_neg, unitsInOne, Nat.cast_pow]
    rfl
  rw [ofRank, if_neg (by omega), if_neg (by omega), hone, div_eq_mul_inv]

theorem ofRat_le_iff {p q : ℚ} : Number.ofRat p ≤ .ofRat q ↔ p ≤ q :=
  WithBot.coe_le_coe.trans WithTop.coe_le_coe

/-- An integer is not rounded past a number that is at least as great. -/
theorem rank_ofInt_le (hlow : -(infinityMagnitude : Int) ≤ rank)
    (h : Number.ofRat i ≤ ofRank rank) : (ofInt i).rank ≤ rank := by
  have hone : (0 : ℚ) < unitsInOne := Nat.cast_pos.mpr unitsInOne_pos
  by_cases hbottom : rank = -(infinityMagnitude : Int)
  · rw [ofRank, if_pos hbottom.le] at h
    exact absurd (le_bot_iff.mp h) WithBot.coe_ne_bot
  by_cases htop : (infinityMagnitude : Int) ≤ rank
  · exact (rank_bounds (isNaN_ofInt i)).2.trans htop
  · rw [ofRank_between (by omega), ofRat_le_iff, le_div_iff₀ hone] at h
    exact rank_ofInt_le_of_units (by omega) (by exact_mod_cast h)

theorem le_rank_ofInt (hhigh : rank ≤ infinityMagnitude)
    (h : ofRank rank ≤ Number.ofRat i) : rank ≤ (ofInt i).rank := by
  have hone : (0 : ℚ) < unitsInOne := Nat.cast_pos.mpr unitsInOne_pos
  by_cases hbottom : rank ≤ -(infinityMagnitude : Int)
  · exact hbottom.trans (rank_bounds (isNaN_ofInt i)).1
  by_cases htop : rank = infinityMagnitude
  · rw [ofRank, if_neg hbottom, if_pos htop.ge] at h
    have hend := WithBot.coe_le_coe.mp h
    exact absurd (top_le_iff.mp hend) WithTop.coe_ne_top
  · rw [ofRank_between (by omega), ofRat_le_iff, div_le_iff₀ hone] at h
    exact le_rank_ofInt_of_units (by omega) (by exact_mod_cast h)

end

/-- An integer that is converted compares with a floating point number as
the integer itself does, unless it is rounded to that number. -/
theorem compare?_ofInt (i : Int) (d : Double) : (ofInt i).compare? d =
    d.number?.map fun x =>
      if (ofInt i).number? = some x then .eq else compare (Number.ofRat i) x := by
  rw [compare?_eq, number?_eq, number?_eq, isNaN_ofInt, if_neg (by decide)]
  by_cases hnan : d.isNaN
  · simp [hnan]
  have hnumber : d.isNaN = false := Bool.eq_false_iff.mpr hnan
  obtain ⟨hlow, hhigh⟩ := rank_bounds hnumber
  have hcompare : compare (ofRank (ofInt i).rank) (ofRank d.rank) =
      if ofRank (ofInt i).rank = ofRank d.rank then .eq
        else compare (Number.ofRat i) (ofRank d.rank) := by
    by_cases hsame : ofRank (ofInt i).rank = ofRank d.rank
    · rw [if_pos hsame, compare_eq_iff_eq.mpr hsame]
    · rw [if_neg hsame, compare_ofRank (isNaN_ofInt i) hnumber]
      exact compare_of_mono (rank_ofInt_le hlow) (le_rank_ofInt hhigh)
        fun h => hsame (congrArg ofRank h)
  simp [hnan, hcompare]

/-- An integer of no more binary digits than a mantissa is converted as it
is. -/
theorem number?_ofInt {i : Int} (h : IsShort i.natAbs) : (ofInt i).number? = some (.ofRat i) := by
  have hone : (unitsInOne : ℚ) ≠ 0 := Nat.cast_ne_zero.mpr unitsInOne_pos.ne'
  have hrank := rank_ofInt i
  have hfinite := naturalMagnitude_lt h
  have hunits : signedUnits (ofInt i).rank = i * unitsInOne := by
    have hsize : signedUnits (naturalMagnitude i.natAbs) = i.natAbs * unitsInOne := by
      rw [signedUnits, if_neg (by omega), Int.natAbs_natCast, unitCount_naturalMagnitude h,
        Nat.cast_mul]
    rw [hrank]
    by_cases hi : i < 0
    · rw [if_pos hi, signedUnits_neg, hsize, ← Int.neg_mul]
      congr 1
      omega
    · rw [if_neg hi, hsize]
      congr 1
      omega
  have hplace : (ofInt i).rank.natAbs < infinityMagnitude := by
    rw [hrank]
    split <;> omega
  rw [number?_eq, isNaN_ofInt, if_neg (by decide), ofRank_between hplace, hunits]
  congr 2
  rw [Int.cast_mul, Int.cast_natCast, mul_div_cancel_right₀ _ hone]

end DialectDb.Double
