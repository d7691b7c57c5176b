/-
The total order of values is one. Two values are in the same place only
if they are the same, and the order is transitive, also where integers
and floating point numbers are mixed: an integer stands right before the
number that it is rounded to, and rounding keeps the order of the
integers. What SQL comparison orders, strings that it reads as numbers
apart, the total order orders alike. Rows are ordered by their first
difference.

This is what a map of groups rests on, and sorting.
-/
import Mathlib.Algebra.Group.Nat.Defs
import Mathlib.Data.Nat.Log
import Mathlib.Order.Lattice
import DialectDb.Value.Order

namespace DialectDb

/-- What keeps an order keeps the comparison of what it does not make the
same. -/
theorem compare_of_mono {α β : Type} [LinearOrder α] [LinearOrder β] {a b : α} {x y : β}
    (hle : a ≤ b → x ≤ y) (hge : b ≤ a → y ≤ x) (hne : x ≠ y) : compare x y = compare a b := by
  rcases lt_trichotomy a b with h | rfl | h
  · rw [compare_lt_iff_lt.mpr h, compare_lt_iff_lt.mpr (lt_of_le_of_ne (hle h.le) hne)]
  · exact absurd (le_antisymm (hle le_rfl) (hge le_rfl)) hne
  · rw [compare_gt_iff_gt.mpr h, compare_gt_iff_gt.mpr (lt_of_le_of_ne (hge h.le) hne.symm)]

-- ============================================================ rounding

namespace Double

/-- Of two quotients with one denominator, the lesser does not round to
more. -/
theorem roundQuotient_mono {a b : Nat} (den : Nat) (h : a ≤ b) :
    roundQuotient a den ≤ roundQuotient b den := by
  have hfloor : a / den ≤ b / den := Nat.div_le_div_right h
  unfold roundQuotient
  by_cases hsame : a / den = b / den
  · have hrest : a % den ≤ b % den := by
      have ha := Nat.div_add_mod a den
      have hb := Nat.div_add_mod b den
      rw [hsame] at ha
      omega
    simp only [hsame, Bool.or_eq_true, decide_eq_true_eq, Bool.and_eq_true, beq_iff_eq]
    split <;> split <;> omega
  · dsimp only
    split <;> split <;> omega

theorem le_roundQuotient {num den low : Nat} (hden : 0 < den) (h : low * den ≤ num) :
    low ≤ roundQuotient num den := by
  have hfloor := (Nat.le_div_iff_mul_le hden).mpr h
  unfold roundQuotient
  dsimp only
  split <;> omega

theorem roundQuotient_le {num den high : Nat} (hden : 0 < den) (h : num < high * den) :
    roundQuotient num den ≤ high := by
  have hfloor := (Nat.div_lt_iff_lt_mul hden).mpr h
  unfold roundQuotient
  dsimp only
  split <;> omega

/-- The bits, without the sign, of the number that a natural number is
rounded to. -/
def naturalMagnitude (n : Nat) : Nat :=
  if n = 0 then 0
  else
    min infinityMagnitude
      ((n.log2 + 1022) * fieldWeight +
        roundQuotient (n * 2 ^ (52 - n.log2)) (2 ^ (n.log2 - 52)))

theorem floorLog_one {n : Nat} (h : n ≠ 0) : floorLog n 1 = n.log2 := by
  have hone : Nat.log2 1 = 0 := by decide
  have hle : (1 : Nat) * power 2 ((n.log2 : Int) - (0 : Nat)) ≤
      n * power 2 (-((n.log2 : Int) - (0 : Nat))) := by
    have hup : ((n.log2 : Int) - (0 : Nat)).toNat = n.log2 := by omega
    have hdown : (-((n.log2 : Int) - (0 : Nat))).toNat = 0 := by omega
    rw [power, power, hup, hdown]
    simpa using Nat.log2_self_le h
  simp only [floorLog, hone, if_pos hle]
  omega

theorem ofRatio_one (negative : Bool) (n : Nat) :
    ofRatio negative n 1 = ofMagnitude negative (naturalMagnitude n) := by
  by_cases h : n = 0
  · rw [ofRatio, naturalMagnitude, if_pos h, if_pos h]
    rfl
  · have hunit : max ((n.log2 : Int) - 52) (-1074) = (n.log2 : Int) - 52 := by omega
    have hup : (-((n.log2 : Int) - 52)).toNat = 52 - n.log2 := by omega
    have hdown : ((n.log2 : Int) - 52).toNat = n.log2 - 52 := by omega
    have hfield : ((n.log2 : Int) - 52 + 1074).toNat = n.log2 + 1022 := by omega
    rw [ofRatio, naturalMagnitude, if_neg h, if_neg h, floorLog_one h]
    simp only [hunit, hfield, power, hup, hdown, Nat.one_mul]
    rfl

/-- The mantissa has 53 bits, or carries. -/
theorem mantissa_bounds {n : Nat} (h : n ≠ 0) :
    fieldWeight ≤ roundQuotient (n * 2 ^ (52 - n.log2)) (2 ^ (n.log2 - 52)) ∧
      roundQuotient (n * 2 ^ (52 - n.log2)) (2 ^ (n.log2 - 52)) ≤ 2 * fieldWeight := by
  have hden : 0 < 2 ^ (n.log2 - 52) := Nat.two_pow_pos _
  have hshift : n.log2 + (52 - n.log2) = 52 + (n.log2 - 52) := by omega
  constructor
  · refine le_roundQuotient hden ?_
    calc 2 ^ 52 * 2 ^ (n.log2 - 52)
        = 2 ^ n.log2 * 2 ^ (52 - n.log2) := by rw [← Nat.pow_add, ← Nat.pow_add, hshift]
      _ ≤ n * 2 ^ (52 - n.log2) := Nat.mul_le_mul_right _ (Nat.log2_self_le h)
  · refine roundQuotient_le hden ?_
    calc n * 2 ^ (52 - n.log2)
        < 2 ^ (n.log2 + 1) * 2 ^ (52 - n.log2) :=
          Nat.mul_lt_mul_of_pos_right Nat.lt_log2_self (Nat.two_pow_pos _)
      _ = 2 * 2 ^ 52 * 2 ^ (n.log2 - 52) := by
          rw [Nat.pow_succ, Nat.mul_right_comm, ← Nat.pow_add, hshift, Nat.pow_add,
            Nat.mul_comm _ 2, Nat.mul_assoc]

theorem naturalMagnitude_mono {m n : Nat} (h : m ≤ n) :
    naturalMagnitude m ≤ naturalMagnitude n := by
  by_cases hm : m = 0
  · rw [naturalMagnitude, if_pos hm]
    exact Nat.zero_le _
  · have hn : n ≠ 0 := by omega
    rw [naturalMagnitude, naturalMagnitude, if_neg hm, if_neg hn]
    have hle : (m.log2 + 1022) * fieldWeight +
          roundQuotient (m * 2 ^ (52 - m.log2)) (2 ^ (m.log2 - 52)) ≤
        (n.log2 + 1022) * fieldWeight +
          roundQuotient (n * 2 ^ (52 - n.log2)) (2 ^ (n.log2 - 52)) := by
      by_cases hlog : m.log2 = n.log2
      · rw [hlog]
        exact Nat.add_le_add_left (roundQuotient_mono _ (Nat.mul_le_mul_right _ h)) _
      · -- the greater number has a greater exponent, even if the lesser carries
        have hlt : m.log2 < n.log2 := by
          have hle : m.log2 ≤ n.log2 := by
            rw [Nat.log2_eq_log_two, Nat.log2_eq_log_two]
            exact Nat.log_mono_right h
          omega
        have hstep : (m.log2 + 1 + 1022) * fieldWeight ≤ (n.log2 + 1022) * fieldWeight :=
          Nat.mul_le_mul_right _ (by omega)
        have hsmall := (mantissa_bounds hm).2
        have hlarge := (mantissa_bounds hn).1
        rw [Nat.add_right_comm, Nat.add_one_mul] at hstep
        omega
    omega

/-- The number with a given sign and magnitude has these. -/
theorem bits_ofMagnitude (negative : Bool) {magnitude : Nat} (h : magnitude < signWeight) :
    (ofMagnitude negative magnitude).negative = negative ∧
      (ofMagnitude negative magnitude).magnitude = magnitude := by
  have hweight : signWeight + signWeight = UInt64.size := by decide
  have hbits : (ofMagnitude negative magnitude).bits.toNat =
      if negative then signWeight + magnitude else magnitude := by
    refine UInt64.toNat_ofNat_of_lt' ?_
    split <;> omega
  cases negative with
  | false =>
      have hpositive : ¬signWeight ≤ magnitude := by omega
      simp only [Double.negative, Double.magnitude, hbits, Bool.false_eq_true, if_false,
        hpositive, decide_false, Nat.mod_eq_of_lt h, and_self]
  | true =>
      simp only [Double.negative, Double.magnitude, hbits, if_true, Nat.le_add_right, decide_true,
        Nat.add_mod_left, Nat.mod_eq_of_lt h, and_self]

theorem naturalMagnitude_le (n : Nat) : naturalMagnitude n ≤ infinityMagnitude := by
  unfold naturalMagnitude
  split
  · exact Nat.zero_le _
  · exact min_le_left _ _

/-- What an integer is rounded to has its sign, and the magnitude that its
size is rounded to. -/
theorem bits_ofInt (i : Int) :
    (ofInt i).negative = decide (i < 0) ∧ (ofInt i).magnitude = naturalMagnitude i.natAbs := by
  rw [ofInt, ofRatio_one]
  exact bits_ofMagnitude _ (Nat.lt_of_le_of_lt (naturalMagnitude_le _) (by decide))

/-- Rounding keeps the order of the integers. -/
theorem totalRank_ofInt_mono {a b : Int} (h : a ≤ b) :
    (ofInt a).totalRank ≤ (ofInt b).totalRank := by
  have hplace (i : Int) : (ofInt i).totalRank =
      if i < 0 then -(naturalMagnitude i.natAbs : Int) - 1 else naturalMagnitude i.natAbs := by
    simp only [totalRank, (bits_ofInt i).1, (bits_ofInt i).2, decide_eq_true_eq]
  rw [hplace, hplace]
  by_cases ha : a < 0
  · by_cases hb : b < 0
    · have hmono := naturalMagnitude_mono (show b.natAbs ≤ a.natAbs by omega)
      rw [if_pos ha, if_pos hb]
      omega
    · rw [if_pos ha, if_neg hb]
      omega
  · have hmono := naturalMagnitude_mono (show a.natAbs ≤ b.natAbs by omega)
    rw [if_neg ha, if_neg (show ¬b < 0 by omega)]
    omega

/-- Numbers are in the same place only if their bits agree. -/
theorem totalRank_injective {a b : Double} (h : a.totalRank = b.totalRank) : a = b := by
  have hrank (d : Double) : d.totalRank =
      if signWeight ≤ d.bits.toNat then -((d.bits.toNat % signWeight : Nat) : Int) - 1
      else (d.bits.toNat % signWeight : Nat) := by
    simp only [totalRank, negative, magnitude, decide_eq_true_eq]
  have ha := a.bits.toNat_lt
  have hb := b.bits.toNat_lt
  have hsame : a.bits.toNat = b.bits.toNat := by
    rw [hrank, hrank] at h
    unfold signWeight at h
    split at h <;> split at h <;> omega
  exact congrArg Double.mk (UInt64.toNat_inj.mp hsame)

/-- What the numeric order has in one place is one number, or zeros. -/
theorem eq_or_zeros_of_rank {a b : Double} (h : a.rank = b.rank) :
    a = b ∨ a.magnitude = 0 ∧ b.magnitude = 0 := by
  by_cases hsign : a.negative = b.negative
  · refine .inl (totalRank_injective ?_)
    unfold rank at h
    unfold totalRank
    rw [hsign] at h ⊢
    cases b.negative <;> simp only [Bool.false_eq_true, if_false, if_true] at h ⊢ <;> omega
  · refine .inr ?_
    unfold rank at h
    cases ha : a.negative <;> cases hb : b.negative <;>
      simp only [ha, hb, Bool.false_eq_true, if_false, if_true, not_true_eq_false] at h hsign <;>
      omega

/-- The order of all floating point numbers is finer than the numeric one,
which puts the two zeros in one place. -/
theorem rank_le_of_totalRank_le {a b : Double} (h : a.totalRank ≤ b.totalRank) :
    a.rank ≤ b.rank := by
  unfold totalRank at h
  unfold rank
  cases ha : a.negative <;> cases hb : b.negative <;>
    simp only [ha, hb, Bool.false_eq_true, if_false, if_true] at h ⊢ <;> omega

theorem totalCompare_of_compare? {a b : Double} (h : a.compare? b = some .lt) :
    a.totalCompare b = .lt := by
  obtain ⟨-, hrank⟩ := Option.ite_none_left_eq_some.mp h
  have hlt : a.rank < b.rank := compare_lt_iff_lt.mp (Option.some_inj.mp hrank)
  exact compare_lt_iff_lt.mpr (lt_of_not_ge fun hge => hlt.not_ge (rank_le_of_totalRank_le hge))

end Double

-- ============================================================== values

namespace Value

/-- The number that a value is, as a place among the floating point
numbers. -/
def numberPlace : Value → Int
  | boolean b => b.toNat
  | integer i => (Double.ofInt i.toInt).totalRank
  | float d => d.totalRank
  | null | string _ => 0

/-- Integers come before the floating point number in their place. -/
def kindPlace : Value → Nat
  | float _ => 1
  | _ => 0

def integerPlace : Value → Int
  | integer i => i.toInt
  | _ => 0

def textPlace : Value → String
  | string s => s
  | _ => ""

/-- Of two integers, the order of the numbers that they are rounded to
says nothing against their own. -/
theorem compare_integers (a b : Int) :
    (Ord.compare (Double.ofInt a).totalRank (Double.ofInt b).totalRank).then (Ord.compare a b) =
      Ord.compare a b := by
  by_cases hsame : (Double.ofInt a).totalRank = (Double.ofInt b).totalRank
  · rw [compare_eq_iff_eq.mpr hsame]
    rfl
  · rw [compare_of_mono Double.totalRank_ofInt_mono Double.totalRank_ofInt_mono hsame,
      Ordering.then_self]

/-- The total order is that of places, the first of them that differ. -/
theorem totalCompare_eq : totalCompare =
    compareLex (compareOn rank) (compareLex (compareOn numberPlace)
      (compareLex (compareOn kindPlace)
        (compareLex (compareOn integerPlace) (compareOn textPlace)))) := by
  funext a b
  cases a with
  | null => cases b <;> rfl
  | boolean a =>
      cases b with
      | boolean b => cases a <;> cases b <;> rfl
      | _ => rfl
  | integer a =>
      cases b with
      | integer b =>
          have hplaces := compare_integers a.toInt b.toInt
          simp [totalCompare, compareLex, compareOn, rank, numberPlace, kindPlace, integerPlace,
            textPlace, hplaces]
      | float b =>
          have hkind : Ord.compare 0 1 = Ordering.lt := rfl
          simp [totalCompare, compareLex, compareOn, rank, numberPlace, kindPlace,
            Double.totalCompare, hkind]
      | _ => rfl
  | float a =>
      cases b with
      | integer b =>
          have hkind : Ord.compare 1 0 = Ordering.gt := rfl
          simp [totalCompare, compareLex, compareOn, rank, numberPlace, kindPlace,
            Double.totalCompare, hkind]
      | float b =>
          simp [totalCompare, compareLex, compareOn, rank, numberPlace, kindPlace, integerPlace,
            textPlace, Double.totalCompare]
      | _ => rfl
  | string a =>
      cases b with
      | string b =>
          simp [totalCompare, compareLex, compareOn, rank, numberPlace, kindPlace, integerPlace,
            textPlace]
      | _ => rfl

instance : Std.TransCmp totalCompare := by
  rw [totalCompare_eq]
  infer_instance

/-- Values are in the same place only if they are the same. -/
theorem eq_of_totalCompare {a b : Value} (h : totalCompare a b = .eq) : a = b := by
  rw [totalCompare_eq] at h
  simp only [compareLex_eq_eq, compareOn] at h
  obtain ⟨hrank, hnumber, hkind, hinteger, htext⟩ := h
  replace hrank := Std.LawfulEqCmp.eq_of_compare hrank
  replace hnumber := Std.LawfulEqCmp.eq_of_compare hnumber
  replace hkind := Std.LawfulEqCmp.eq_of_compare hkind
  replace hinteger := Std.LawfulEqCmp.eq_of_compare hinteger
  replace htext := Std.LawfulEqCmp.eq_of_compare htext
  cases a with
  | null =>
      cases b with
      | null => rfl
      | _ => simp [rank] at hrank
  | boolean a =>
      cases b with
      | boolean b => cases a <;> cases b <;> first | rfl | simp [numberPlace] at hnumber
      | _ => simp [rank] at hrank
  | integer a =>
      cases b with
      | integer b => exact congrArg integer (Int64.toInt_inj.mp hinteger)
      | float b => simp [kindPlace] at hkind
      | _ => simp [rank] at hrank
  | float a =>
      cases b with
      | integer b => simp [kindPlace] at hkind
      | float b => exact congrArg float (Double.totalRank_injective hnumber)
      | _ => simp [rank] at hrank
  | string a =>
      cases b with
      | string b => exact congrArg string htext
      | _ => simp [rank] at hrank

instance : Std.LawfulEqCmp totalCompare where
  eq_of_compare := eq_of_totalCompare

-- ====================================================== SQL comparison

/-- Whether SQL comparison reads one of two values as a number because the
other one is a number. -/
def readsText : Value → Value → Bool
  | string _, integer _ | string _, float _ | integer _, string _ | float _, string _ => true
  | _, _ => false

/-- Where SQL comparison says "less", so does the total order. -/
theorem totalCompare_of_compare {a b : Value} (htext : readsText a b = false)
    (h : compare a b = .ok (some .lt)) : totalCompare a b = .lt := by
  cases a with
  | null => cases b <;> simp [compare] at h
  | boolean a =>
      cases b with
      | boolean b => simpa [compare, totalCompare] using h
      | _ => simp [compare] at h
  | integer a =>
      cases b with
      | integer b => simpa [compare, totalCompare] using h
      | float b =>
          simp only [compare, Except.ok.injEq] at h
          simp [totalCompare, Double.totalCompare_of_compare? h]
      | string b => simp [readsText] at htext
      | _ => simp [compare] at h
  | float a =>
      cases b with
      | integer b =>
          simp only [compare, Except.ok.injEq] at h
          simp [totalCompare, Double.totalCompare_of_compare? h]
      | float b =>
          simp only [compare, Except.ok.injEq] at h
          simp [totalCompare, Double.totalCompare_of_compare? h]
      | string b => simp [readsText] at htext
      | _ => simp [compare] at h
  | string a =>
      cases b with
      | string b => simpa [compare, totalCompare] using h
      | integer b => simp [readsText] at htext
      | float b => simp [readsText] at htext
      | _ => simp [compare] at h

/-- The total order is total, of two values one before the other or both
the same, transitive, and finer than SQL comparison. -/
theorem totalCompare_refines (a b c : Value) :
    totalCompare b a = (totalCompare a b).swap ∧
      (totalCompare a b ≠ .gt → totalCompare b c ≠ .gt → totalCompare a c ≠ .gt) ∧
      (totalCompare a b = .eq ↔ a = b) ∧
      (readsText a b = false → compare a b = .ok (some .lt) → totalCompare a b = .lt) := by
  refine ⟨Std.OrientedCmp.eq_swap, ?_, Std.LawfulEqCmp.compare_eq_iff_eq, totalCompare_of_compare⟩
  intro hab hbc
  exact Ordering.ne_gt_iff_isLE.mpr
    (Std.TransCmp.isLE_trans (Ordering.ne_gt_iff_isLE.mp hab) (Ordering.ne_gt_iff_isLE.mp hbc))

/-- Two integers that are rounded to one number, and this number after
them. -/
theorem totalCompare_refines_rounded :
    totalCompare (.integer 9007199254740992) (.integer 9007199254740993) = .lt ∧
      totalCompare (.integer 9007199254740992) (.float ⟨0x4340000000000000⟩) ≠ .gt := by
  obtain ⟨-, htrans, -, hless⟩ := totalCompare_refines (.integer 9007199254740992)
    (.integer 9007199254740993) (.float ⟨0x4340000000000000⟩)
  exact ⟨hless (by decide) (by decide +kernel), htrans (by decide +kernel) (by decide +kernel)⟩

-- ================================================================ rows

theorem totalCompareRows_eq : totalCompareRows = List.compareLex totalCompare := by
  funext a b
  induction a generalizing b with
  | nil => cases b <;> rfl
  | cons a as ih =>
      cases b with
      | nil => rfl
      | cons b bs =>
          rw [totalCompareRows, List.compareLex_cons_cons, ih]

instance : Std.TransCmp totalCompareRows := by
  rw [totalCompareRows_eq]
  infer_instance

instance : Std.LawfulEqCmp totalCompareRows := by
  rw [totalCompareRows_eq]
  infer_instance

end Value

end DialectDb
