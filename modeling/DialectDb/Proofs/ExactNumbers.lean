/-
The exact numbers that floating point numbers are. A finite number is a
rational, a multiple of the least positive number (`unitCount`); the
infinities are the ends of the line. Comparing floating point numbers is
comparing these (`compare?_eq`), and the integer that a floating point
number is, is this number (`toInt?_eq_some`).

The numbers are in the order of the bits without the sign, so what is
shown of the order of units is shown once, for natural numbers.
-/
import Mathlib.Order.WithBot
import DialectDb.Proofs.Rounding

namespace DialectDb

/-- The rational numbers, with an end of the line on either side. -/
abbrev Number := WithBot (WithTop ℚ)

/-- A rational number between the ends. -/
abbrev Number.ofRat (q : ℚ) : Number := ((q : WithTop ℚ) : WithBot (WithTop ℚ))

namespace Double

/-- The number that a floating point number is exactly. The infinities
are the ends of the line, and a NaN is no number. -/
def number? (d : Double) : Option Number :=
  match d.view with
  | .nan => none
  | .infinite negative => some (if negative then ⊥ else ⊤)
  | .finite negative mantissa exponent =>
    let size : ℚ := mantissa * 2 ^ exponent
    some (.ofRat (if negative then -size else size))

-- =============================================================== units

/-- How many of the least positive number a magnitude is. -/
def unitCount (magnitude : Nat) : Nat :=
  if magnitude / fieldWeight = 0 then magnitude % fieldWeight
  else (fieldWeight + magnitude % fieldWeight) * 2 ^ (magnitude / fieldWeight - 1)

/-- A magnitude is less than the least one with the next exponent. -/
theorem unitCount_lt (magnitude : Nat) :
    unitCount magnitude < fieldWeight * 2 ^ (magnitude / fieldWeight) := by
  have hrest := Nat.mod_lt magnitude (show 0 < fieldWeight by decide)
  unfold unitCount
  by_cases hfield : magnitude / fieldWeight = 0
  · rw [if_pos hfield, hfield, Nat.pow_zero, Nat.mul_one]
    exact hrest
  · have hpower : 2 ^ (magnitude / fieldWeight) = 2 * 2 ^ (magnitude / fieldWeight - 1) := by
      rw [← Nat.pow_succ', Nat.succ_eq_add_one, Nat.sub_one_add_one hfield]
    rw [if_neg hfield, hpower, ← Nat.mul_assoc, Nat.mul_comm fieldWeight 2]
    exact Nat.mul_lt_mul_of_pos_right (by omega) (Nat.two_pow_pos _)

/-- A greater magnitude has a greater exponent, or the same and a greater
fraction. -/
theorem unitCount_strictMono : StrictMono unitCount := by
  intro a b h
  have hsplit (n : Nat) := Nat.div_add_mod n fieldWeight
  have hrest (n : Nat) := Nat.mod_lt n (show 0 < fieldWeight by decide)
  have hfields : a / fieldWeight < b / fieldWeight ∨
      a / fieldWeight = b / fieldWeight ∧ a % fieldWeight < b % fieldWeight := by
    have ha := hsplit a
    have hb := hsplit b
    have hra := hrest a
    unfold fieldWeight at *
    omega
  rcases hfields with hlt | ⟨heq, hlt⟩
  · calc unitCount a
        < fieldWeight * 2 ^ (a / fieldWeight) := unitCount_lt a
      _ ≤ (fieldWeight + b % fieldWeight) * 2 ^ (b / fieldWeight - 1) :=
          Nat.mul_le_mul (Nat.le_add_right _ _)
            (Nat.pow_le_pow_right (by decide) (Nat.le_sub_one_of_lt hlt))
      _ = unitCount b := by rw [unitCount, if_neg (Nat.ne_zero_of_lt hlt)]
  · unfold unitCount
    rw [heq]
    by_cases hfield : b / fieldWeight = 0
    · rw [if_pos hfield, if_pos hfield]
      exact hlt
    · rw [if_neg hfield, if_neg hfield]
      exact Nat.mul_lt_mul_of_pos_right (Nat.add_lt_add_left hlt _) (Nat.two_pow_pos _)

/-- The units of a place in the numeric order, with the sign. -/
def signedUnits (rank : Int) : Int :=
  if rank < 0 then -(unitCount rank.natAbs : Int) else unitCount rank.natAbs

theorem signedUnits_lt {a b : Int} (h : a < b) : signedUnits a < signedUnits b := by
  have hzero : unitCount 0 = 0 := by decide
  unfold signedUnits
  by_cases ha : a < 0
  · by_cases hb : b < 0
    · have hlt := unitCount_strictMono (show b.natAbs < a.natAbs by omega)
      rw [if_pos ha, if_pos hb]
      omega
    · have hlt := unitCount_strictMono (show 0 < a.natAbs by omega)
      rw [if_pos ha, if_neg hb]
      omega
  · have hlt := unitCount_strictMono (show a.natAbs < b.natAbs by omega)
    rw [if_neg ha, if_neg (show ¬b < 0 by omega)]
    omega

theorem signedUnits_neg (rank : Int) : signedUnits (-rank) = -signedUnits rank := by
  have hzero : unitCount 0 = 0 := by decide
  unfold signedUnits
  rw [Int.natAbs_neg]
  rcases lt_trichotomy rank 0 with h | rfl | h
  · rw [if_neg (show ¬-rank < 0 by omega), if_pos h, Int.neg_neg]
  · simp [hzero]
  · rw [if_pos (show -rank < 0 by omega), if_neg (show ¬rank < 0 by omega)]

-- ============================================================== places

/-- The number at a place in the numeric order. -/
def ofRank (rank : Int) : Number :=
  if rank ≤ -(infinityMagnitude : Int) then ⊥
  else if (infinityMagnitude : Int) ≤ rank then ⊤
  else .ofRat (signedUnits rank * 2 ^ (-1074 : Int))

/-- Between the infinities, the numbers are in the order of their
places. -/
theorem ofRank_lt {a b : Int} (h : a < b) (ha : -(infinityMagnitude : Int) ≤ a)
    (hb : b ≤ infinityMagnitude) : ofRank a < ofRank b := by
  have hsome (q : ℚ) : ⊥ < Number.ofRat q ∧ Number.ofRat q < ⊤ :=
    ⟨WithBot.bot_lt_coe _, WithBot.coe_lt_coe.mpr (WithTop.coe_lt_top q)⟩
  have hends : (⊥ : Number) < ⊤ := bot_lt_top
  unfold ofRank
  rw [if_neg (show ¬b ≤ -(infinityMagnitude : Int) by omega),
    if_neg (show ¬(infinityMagnitude : Int) ≤ a by omega)]
  by_cases hlow : a ≤ -(infinityMagnitude : Int)
  · rw [if_pos hlow]
    by_cases hhigh : (infinityMagnitude : Int) ≤ b
    · rw [if_pos hhigh]
      exact hends
    · rw [if_neg hhigh]
      exact (hsome _).1
  · rw [if_neg hlow]
    by_cases hhigh : (infinityMagnitude : Int) ≤ b
    · rw [if_pos hhigh]
      exact (hsome _).2
    · rw [if_neg hhigh]
      refine WithBot.coe_lt_coe.mpr (WithTop.coe_lt_coe.mpr ?_)
      refine mul_lt_mul_of_pos_right ?_ (zpow_pos (by decide) _)
      exact Int.cast_lt.mpr (signedUnits_lt h)

/-- What the bits of a number mean: past the infinity it is a NaN, and
before it a mantissa with an exponent, which are as many units as the
magnitude is. -/
theorem view_cases (d : Double) :
    d.view = .nan ∧ infinityMagnitude < d.magnitude ∨
      d.view = .infinite d.negative ∧ d.magnitude = infinityMagnitude ∨
      ∃ m e, d.view = .finite d.negative m e ∧ d.magnitude < infinityMagnitude ∧
        (m : ℚ) * 2 ^ e = unitCount d.magnitude * 2 ^ (-1074 : Int) := by
  have hsplit := Nat.div_add_mod d.magnitude fieldWeight
  have hrest := Nat.mod_lt d.magnitude (show 0 < fieldWeight by decide)
  have hbound : d.magnitude < 2048 * fieldWeight := Nat.mod_lt _ (by decide)
  unfold view unitCount infinityMagnitude
  dsimp only
  generalize d.magnitude % fieldWeight = fraction at hsplit hrest ⊢
  generalize d.magnitude / fieldWeight = field at hsplit ⊢
  by_cases hlast : field = 2047
  · rw [if_pos hlast]
    by_cases hfraction : fraction = 0
    · rw [if_pos hfraction]
      refine .inr (.inl ⟨rfl, ?_⟩)
      rw [← hsplit, hlast, hfraction, Nat.add_zero, Nat.mul_comm]
    · rw [if_neg hfraction]
      refine .inl ⟨rfl, ?_⟩
      unfold fieldWeight at hsplit ⊢
      omega
  · have hfinite : d.magnitude < 2047 * fieldWeight := by
      unfold fieldWeight at *
      omega
    rw [if_neg hlast]
    refine .inr (.inr ?_)
    by_cases hfield : field = 0
    · rw [if_pos hfield, if_pos hfield]
      exact ⟨_, _, rfl, hfinite, rfl⟩
    · have hexponent : ((field - 1 : Nat) : Int) + -1074 = (field : Int) - 1075 := by omega
      rw [if_neg hfield, if_neg hfield]
      refine ⟨_, _, rfl, hfinite, ?_⟩
      rw [Nat.cast_mul, Nat.cast_pow, Nat.cast_ofNat, ← zpow_natCast, mul_assoc,
        ← zpow_add₀ (by decide), hexponent]

theorem rank_bounds {d : Double} (h : d.isNaN = false) :
    -(infinityMagnitude : Int) ≤ d.rank ∧ d.rank ≤ infinityMagnitude := by
  have hsize : d.magnitude ≤ infinityMagnitude := by
    simpa [isNaN] using h
  unfold rank
  split <;> omega

/-- The number at a place that is none of an infinity. -/
theorem ofRank_finite (negative : Bool) {magnitude : Nat} (h : magnitude < infinityMagnitude) :
    ofRank (if negative then -(magnitude : Int) else magnitude) =
      .ofRat (if negative then -((unitCount magnitude : ℚ) * 2 ^ (-1074 : Int))
        else unitCount magnitude * 2 ^ (-1074 : Int)) := by
  cases negative with
  | false =>
      have hplace : ofRank (magnitude : Int) =
          .ofRat (signedUnits magnitude * 2 ^ (-1074 : Int)) := by
        rw [ofRank, if_neg (by omega), if_neg (by omega)]
      have hunits : signedUnits magnitude = unitCount magnitude := by
        rw [signedUnits, if_neg (by omega), Int.natAbs_natCast]
      simp [hplace, hunits]
  | true =>
      have hplace : ofRank (-(magnitude : Int)) =
          .ofRat (signedUnits (-(magnitude : Int)) * 2 ^ (-1074 : Int)) := by
        rw [ofRank, if_neg (by omega), if_neg (by omega)]
      have hunits : signedUnits (-(magnitude : Int)) = -(unitCount magnitude : Int) := by
        rw [signedUnits_neg, signedUnits, if_neg (by omega), Int.natAbs_natCast]
      simp [hplace, hunits]

/-- A NaN aside, the number is the one at the place. -/
theorem number?_eq (d : Double) : d.number? = if d.isNaN then none else some (ofRank d.rank) := by
  unfold number? rank isNaN
  obtain ⟨hview, hsize⟩ | ⟨hview, hsize⟩ | ⟨m, e, hview, hsize, hvalue⟩ := d.view_cases
  · simp [hview, hsize]
  · rw [hview, hsize]
    cases d.negative <;> simp [ofRank, infinityMagnitude, fieldWeight]
  · rw [hview, ofRank_finite _ hsize, ← hvalue]
    simp [Nat.not_lt.mpr hsize.le]

theorem compare_ofRank {a b : Double} (ha : a.isNaN = false) (hb : b.isNaN = false) :
    compare (ofRank a.rank) (ofRank b.rank) = compare a.rank b.rank := by
  obtain ⟨halow, hahigh⟩ := rank_bounds ha
  obtain ⟨hblow, hbhigh⟩ := rank_bounds hb
  rcases lt_trichotomy a.rank b.rank with h | h | h
  · rw [compare_lt_iff_lt.mpr h, compare_lt_iff_lt.mpr (ofRank_lt h halow hbhigh)]
  · rw [h, compare_eq_iff_eq.mpr rfl, compare_eq_iff_eq.mpr rfl]
  · rw [compare_gt_iff_gt.mpr h, compare_gt_iff_gt.mpr (ofRank_lt h hblow hahigh)]

/-- Floating point numbers compare as the numbers that they are. -/
theorem compare?_eq (a b : Double) : a.compare? b =
    a.number?.bind fun x => b.number?.map fun y => compare x y := by
  rw [number?_eq, number?_eq]
  unfold compare?
  by_cases ha : a.isNaN
  · simp [ha]
  by_cases hb : b.isNaN
  · simp [hb]
  have hcompare := compare_ofRank (Bool.eq_false_iff.mpr ha) (Bool.eq_false_iff.mpr hb)
  simp [ha, hb, hcompare]

-- ============================================================ integrals

/-- Whether a mantissa with its exponent is an integer is decided in
natural numbers, and which one it is. -/
theorem whole_iff {m : Nat} {e n : Int} : (m : ℚ) * 2 ^ e = n ↔
    m % power 2 (-e) = 0 ∧ ((m * power 2 e / power 2 (-e) : Nat) : Int) = n := by
  have hpos : 0 < power 2 (-e) := power_pos (by decide) _
  have hden : (power 2 (-e) : ℚ) ≠ 0 := Nat.cast_ne_zero.mpr hpos.ne'
  have hvalue : (m : ℚ) * 2 ^ e = n ↔ ((m * power 2 e : Nat) : Int) = n * power 2 (-e) := by
    rw [← mul_left_inj' hden, mul_assoc, ← Int.cast_inj (α := ℚ), Int.cast_natCast, Nat.cast_mul,
      Int.cast_mul, Int.cast_natCast, power_cast (by decide) e]
    rfl
  rw [hvalue]
  constructor
  · intro h
    have hquotient : ((m * power 2 e / power 2 (-e) : Nat) : Int) = n := by
      rw [Int.natCast_div, h, Int.mul_ediv_cancel _ (by omega)]
    refine ⟨?_, hquotient⟩
    -- one of the two powers is one
    rcases Int.le_total 0 e with he | he
    · have hone : power 2 (-e) = 1 := by
        rw [power, show (-e).toNat = 0 by omega, Nat.pow_eq, Nat.pow_zero]
      rw [hone, Nat.mod_one]
    · have hone : power 2 e = 1 := by
        rw [power, show e.toNat = 0 by omega, Nat.pow_eq, Nat.pow_zero]
      rw [hone, Nat.mul_one] at h
      have hdvd : (power 2 (-e) : Int) ∣ (m : Int) := ⟨n, by rw [h, Int.mul_comm]⟩
      exact Nat.mod_eq_zero_of_dvd (Int.natCast_dvd_natCast.mp hdvd)
  · rintro ⟨hrest, rfl⟩
    obtain ⟨q, rfl⟩ := Nat.dvd_of_mod_eq_zero hrest
    rw [Nat.mul_assoc, Nat.mul_div_cancel_left _ hpos, Nat.mul_comm, Nat.cast_mul]

/-- The integer that a number is, is that integer exactly. -/
theorem toInt?_eq_some {d : Double} {n : Int} :
    d.toInt? = some n ↔ d.number? = some (.ofRat n) := by
  have hends : (⊥ : Number) ≠ .ofRat n ∧ (⊤ : Number) ≠ .ofRat n :=
    ⟨WithBot.bot_ne_coe, fun h => WithTop.top_ne_coe (WithBot.coe_injective h)⟩
  have hinj (p q : ℚ) : Number.ofRat p = .ofRat q ↔ p = q :=
    WithBot.coe_inj.trans WithTop.coe_inj
  unfold toInt? number?
  rcases d.view with _ | negative | ⟨negative, m, e⟩
  · simp
  · cases negative <;> simp [hends]
  dsimp only
  rw [Option.some_inj, hinj]
  cases negative with
  | false =>
      simp only [Bool.false_eq_true, if_false]
      rw [whole_iff]
      split
      · next hrest => simp [hrest]
      · next hrest => simp [hrest]
  | true =>
      have hopposite : -((m : ℚ) * 2 ^ e) = n ↔ (m : ℚ) * 2 ^ e = (-n : Int) := by
        rw [Int.cast_neg, neg_eq_iff_eq_neg]
      simp only [if_true]
      rw [hopposite, whole_iff]
      split
      · next hrest => simp [hrest, neg_eq_iff_eq_neg]
      · next hrest => simp [hrest]

end Double

end DialectDb
