/-
What the aggregate functions are of a list of values. They are taken in
one by one, and what has been gathered of them is a state that changes
with each; in the end it is a function of the values that are not NULL:
how many there are, which is the least or the greatest, what their sum
is (`Accumulator.gather_eq_ok`).
-/
import DialectDb.Rows.Grouped
import DialectDb.Value.Storage
import DialectDb.Proofs.Result
import DialectDb.Proofs.TotalOrder

namespace DialectDb

-- ============================================================= meaning

/-- The values that are aggregated: all but the NULLs. -/
def Value.known (values : List Value) : List Value :=
  values.filter (· ≠ .null)

/-- The sum of values: zero, and then value after value added to it. -/
def Value.total (values : List Value) : Result Value :=
  values.foldlM Value.add (.integer 0)

/-- What an aggregate function gives for some values, none of them NULL.
There is nothing for a sum that cannot be computed. -/
inductive Aggregate.Gives : Aggregate → List Value → Value → Prop
  | count {values : List Value} : Gives .count values (.integer (Int64.ofNat values.length))
  | max {values : List Value} {greatest : Value} (mem : greatest ∈ values)
      (bound : ∀ value ∈ values, value.totalCompare greatest ≠ .gt) : Gives .max values greatest
  | min {values : List Value} {least : Value} (mem : least ∈ values)
      (bound : ∀ value ∈ values, least.totalCompare value ≠ .gt) : Gives .min values least
  | sum {values : List Value} {total : Value} (counted : values ≠ [])
      (summed : Value.total values = .ok total) : Gives .sum values total
  | average {values : List Value} {total number mean : Value} (counted : values ≠ [])
      (summed : Value.total values = .ok total) (converted : total.coerce .float = .ok number)
      (divided : number.divide (.float (.ofInt values.length)) = .ok mean) :
      Gives .average values mean
  | nothing {function : Aggregate} (other : function ≠ .count) : Gives function [] .null

/-- Whether a function needs the sum of the values. -/
def Aggregate.sums : Aggregate → Bool
  | .sum | .average => true
  | .count | .max | .min => false

namespace Value

theorem ne_null_of_known {values : List Value} : ∀ value ∈ known values, value ≠ .null :=
  fun _ hvalue => of_decide_eq_true (List.mem_filter.mp hvalue).2

-- ================================================================ sums

/-- A sum is a number, and so is what can be added to one, NULL
apart. -/
inductive IsNumber : Value → Prop
  | integer (i : Int64) : IsNumber (.integer i)
  | float (d : Double) : IsNumber (.float d)

theorem ofInt_eq_ok {i : Int} {value : Value} (h : ofInt i = .ok value) :
    ∃ j, value = .integer j ∧ j.toInt = i := by
  unfold ofInt at h
  split at h
  · next hrange =>
      cases h
      have hmin : Int64.minValue.toInt = -2 ^ 63 := rfl
      have hmax : Int64.maxValue.toInt = 2 ^ 63 - 1 := rfl
      exact ⟨_, rfl, Int64.toInt_ofInt_of_le (by omega) (by omega)⟩
  · cases h

theorem isNumber_add {total value after : Value} (htotal : total.IsNumber) (hvalue : value ≠ .null)
    (h : total.add value = .ok after) : value.IsNumber ∧ after.IsNumber := by
  cases htotal with
  | integer i =>
      cases value with
      | null => exact absurd rfl hvalue
      | integer j =>
          obtain ⟨k, rfl, -⟩ := ofInt_eq_ok h
          exact ⟨.integer j, .integer k⟩
      | float d => cases h; exact ⟨.float d, .float _⟩
      | _ => cases h
  | float d =>
      cases value with
      | null => exact absurd rfl hvalue
      | integer j => cases h; exact ⟨.integer j, .float _⟩
      | float e => cases h; exact ⟨.float e, .float _⟩
      | _ => cases h

/-- Values that can be added to a number are numbers, and so is their
sum. -/
theorem isNumber_total {values : List Value} (hknown : ∀ value ∈ values, value ≠ .null)
    {start total : Value} (hstart : start.IsNumber) (h : values.foldlM add start = .ok total) :
    (∀ value ∈ values, value.IsNumber) ∧ total.IsNumber := by
  induction values generalizing start with
  | nil =>
      cases h
      exact ⟨fun _ hvalue => absurd hvalue List.not_mem_nil, hstart⟩
  | cons value values ih =>
      obtain ⟨hvalue, hrest⟩ := List.forall_mem_cons.mp hknown
      obtain ⟨mid, hmid, h⟩ := Result.bind_eq_ok.mp h
      obtain ⟨hnumber, hmid⟩ := isNumber_add hstart hvalue hmid
      obtain ⟨hnumbers, htotal⟩ := ih hrest hmid h
      exact ⟨List.forall_mem_cons.mpr ⟨hnumber, hnumbers⟩, htotal⟩

-- ============================================================= extremes

/-- A value of a list that none of them comes after. -/
structure IsLast (compare : Value → Value → Ordering) (values : List Value) (last : Value) :
    Prop where
  mem : last ∈ values
  bound : ∀ value ∈ values, compare value last ≠ .gt

variable {compare : Value → Value → Ordering} [Std.TransCmp compare] {values : List Value}
  {last : Value}

/-- Only one value is the last. -/
theorem IsLast.unique [Std.LawfulEqCmp compare] {other : Value} (h : IsLast compare values last)
    (hother : IsLast compare values other) : last = other := by
  have hle : compare last other ≠ .gt := hother.bound last h.mem
  have hge : compare last other ≠ .lt := mt Std.OrientedCmp.gt_of_lt (h.bound other hother.mem)
  have hsame : compare last other = .eq := by
    cases hcompare : compare last other <;> simp_all
  exact Std.LawfulEqCmp.eq_of_compare hsame

theorem isLast_singleton (value : Value) : IsLast compare [value] value where
  mem := List.mem_singleton.mpr rfl
  bound other hother := by
    have hself : compare value value = .eq := Std.ReflCmp.compare_self
    rw [List.mem_singleton.mp hother, hself]
    decide

/-- With one more value, that one or the last one so far is the last. -/
theorem IsLast.append (h : IsLast compare values last) (value : Value) :
    IsLast compare (values ++ [value]) (if compare value last = .gt then value else last) := by
  split
  · next hgt =>
      have hlt : compare last value = .lt := Std.OrientedCmp.lt_of_gt hgt
      refine ⟨List.mem_append_right _ (List.mem_singleton.mpr rfl), fun other hother => ?_⟩
      rcases List.mem_append.mp hother with hother | hother
      · have hle := Ordering.ne_gt_iff_isLE.mp (h.bound other hother)
        exact Ordering.ne_gt_iff_isLE.mpr (Std.TransCmp.isLE_trans hle (by rw [hlt]; rfl))
      · exact (isLast_singleton value).bound other hother
  · next hle =>
      refine ⟨List.mem_append_left _ h.mem, fun other hother => ?_⟩
      rcases List.mem_append.mp hother with hother | hother
      · exact h.bound other hother
      · rw [List.mem_singleton.mp hother]
        exact hle

theorem IsLast.foldl (h : IsLast compare values last) (rest : List Value) :
    IsLast compare (values ++ rest)
      (rest.foldl (fun last value => if compare value last = .gt then value else last) last) := by
  induction rest generalizing values last with
  | nil => rwa [List.append_nil]
  | cons value rest ih =>
      rw [List.append_cons]
      exact ih (h.append value)

end Value

-- ======================================================== accumulators

namespace Accumulator

variable {values : List Value}

theorem add_null (a : Accumulator) : a.add .null = .ok a := if_pos rfl

/-- NULLs are passed over. -/
theorem gather_known (a : Accumulator) (values : List Value) :
    values.foldlM add a = (Value.known values).foldlM add a := by
  induction values generalizing a with
  | nil => rfl
  | cons value values ih =>
      by_cases hnull : value = .null
      · subst hnull
        rw [List.foldlM_cons, add_null]
        exact ih a
      · have hkept : Value.known (value :: values) = value :: Value.known values :=
          List.filter_cons_of_pos (decide_eq_true hnull)
        rw [hkept, List.foldlM_cons, List.foldlM_cons]
        exact bind_congr ih

/-- What an accumulator holds goes from value to value where none of them
can fail. -/
theorem gather_eq_foldl {β : Type} {f : β → Accumulator} {step : β → Value → β}
    (hstep : ∀ b value, value ≠ .null → add (f b) value = .ok (f (step b value)))
    (hknown : ∀ value ∈ values, value ≠ .null) (b : β) :
    values.foldlM add (f b) = .ok (f (values.foldl step b)) := by
  induction values generalizing b with
  | nil => rfl
  | cons value values ih =>
      obtain ⟨hvalue, hrest⟩ := List.forall_mem_cons.mp hknown
      rw [List.foldlM_cons, hstep b value hvalue]
      exact ih hrest (step b value)

theorem gather_count (hknown : ∀ value ∈ values, value ≠ .null) (n : Nat) :
    values.foldlM add (count n) = .ok (count (n + values.length)) := by
  have hgather : values.foldlM add (count n) =
      .ok (count (values.foldl (fun n _ => n + 1) n)) :=
    gather_eq_foldl (fun n value hvalue => by rw [add, if_neg hvalue]) hknown n
  rw [hgather, List.foldl_add_const, Nat.one_mul]

/-- The count of an average goes along with its sum. -/
theorem gather_average (hknown : ∀ value ∈ values, value ≠ .null) (n : Nat) (total : Value) :
    values.foldlM add (average n total) =
      average (n + values.length) <$> values.foldlM Value.add total := by
  induction values generalizing n total with
  | nil => rfl
  | cons value values ih =>
      obtain ⟨hvalue, hrest⟩ := List.forall_mem_cons.mp hknown
      have hadd : add (average n total) value = average (n + 1) <$> total.add value := if_neg hvalue
      rw [List.foldlM_cons, List.foldlM_cons, hadd]
      cases total.add value with
      | error e => rfl
      | ok after =>
          rw [Result.map_ok, Result.ok_bind, Result.ok_bind, ih hrest, List.length_cons,
            Nat.add_assoc, Nat.add_comm 1]

theorem gather_sum_some (hknown : ∀ value ∈ values, value ≠ .null) (total : Value) :
    values.foldlM add (sum (some total)) =
      (fun total => sum (some total)) <$> values.foldlM Value.add total := by
  induction values generalizing total with
  | nil => rfl
  | cons value values ih =>
      obtain ⟨hvalue, hrest⟩ := List.forall_mem_cons.mp hknown
      have hadd : add (sum (some total)) value =
          (fun total => sum (some total)) <$> total.add value := if_neg hvalue
      rw [List.foldlM_cons, List.foldlM_cons, hadd]
      cases total.add value with
      | error e => rfl
      | ok after => exact ih hrest after

theorem gather_sum (hknown : ∀ value ∈ values, value ≠ .null) (hne : values ≠ []) :
    values.foldlM add (sum none) = (fun total => sum (some total)) <$> Value.total values := by
  obtain ⟨value, rest, rfl⟩ := List.exists_cons_of_ne_nil hne
  obtain ⟨hvalue, hrest⟩ := List.forall_mem_cons.mp hknown
  have hadd : add (sum none) value =
      (fun total => sum (some total)) <$> (Value.integer 0).add value := if_neg hvalue
  rw [Value.total, List.foldlM_cons, List.foldlM_cons, hadd]
  cases (Value.integer 0).add value with
  | error e => rfl
  | ok first => exact gather_sum_some hrest first

/-- An extreme that is replaced by each value that comes after it ends as
the last of them. -/
theorem gather_last {compare : Value → Value → Ordering} [Std.TransCmp compare]
    {f : Option Value → Accumulator}
    (hfirst : ∀ value ≠ .null, add (f none) value = .ok (f (some value)))
    (hnext : ∀ last, ∀ value ≠ .null, add (f (some last)) value =
      .ok (f (some (if compare value last = .gt then value else last))))
    (hknown : ∀ value ∈ values, value ≠ .null) (hne : values ≠ []) :
    ∃ last, Value.IsLast compare values last ∧
      values.foldlM add (f none) = .ok (f (some last)) := by
  obtain ⟨value, rest, rfl⟩ := List.exists_cons_of_ne_nil hne
  obtain ⟨hvalue, hrest⟩ := List.forall_mem_cons.mp hknown
  refine ⟨_, (Value.isLast_singleton value).foldl rest, ?_⟩
  rw [List.foldlM_cons, hfirst value hvalue]
  exact gather_eq_foldl hnext hrest value

theorem gather_max (hknown : ∀ value ∈ values, value ≠ .null) (hne : values ≠ []) :
    ∃ greatest, Value.IsLast Value.totalCompare values greatest ∧
      values.foldlM add (max none) = .ok (max (some greatest)) := by
  refine gather_last (fun value hvalue => if_neg hvalue) (fun greatest value hvalue => ?_) hknown hne
  rw [add, if_neg hvalue, apply_ite some]

theorem gather_min (hknown : ∀ value ∈ values, value ≠ .null) (hne : values ≠ []) :
    ∃ least, Value.IsLast (fun a b => Value.totalCompare b a) values least ∧
      values.foldlM add (min none) = .ok (min (some least)) := by
  have : Std.TransCmp fun a b => Value.totalCompare b a := Std.TransCmp.opposite
  refine gather_last (fun value hvalue => if_neg hvalue) (fun least value hvalue => ?_) hknown hne
  have hbefore : value.totalCompare least = .lt ↔ least.totalCompare value = .gt :=
    Std.OrientedCmp.gt_iff_lt.symm
  rw [add, if_neg hvalue, apply_ite some]
  simp only [hbefore]

end Accumulator

-- ========================================================== aggregates

namespace Aggregate

open Accumulator

variable {function : Aggregate} {values : List Value} {result : Value}

theorem gives_nil (hcount : function ≠ .count) : function.Gives [] result ↔ result = .null := by
  constructor
  · rintro (_ | ⟨hmem, -⟩ | ⟨hmem, -⟩ | ⟨hne, -⟩ | ⟨hne, -⟩ | _)
    · exact absurd rfl hcount
    · exact absurd hmem List.not_mem_nil
    · exact absurd hmem List.not_mem_nil
    · exact absurd rfl hne
    · exact absurd rfl hne
    · rfl
  · rintro rfl
    exact .nothing hcount

theorem gives_max {greatest : Value} (h : Value.IsLast Value.totalCompare values greatest) :
    max.Gives values result ↔ result = greatest := by
  constructor
  · rintro (_ | ⟨hmem, hbound⟩ | _)
    · exact (h.unique ⟨hmem, hbound⟩).symm
    · exact absurd h.mem List.not_mem_nil
  · rintro rfl
    exact .max h.mem h.bound

theorem gives_min {least : Value}
    (h : Value.IsLast (fun a b => Value.totalCompare b a) values least) :
    min.Gives values result ↔ result = least := by
  have : Std.LawfulEqCmp fun a b => Value.totalCompare b a := Std.LawfulEqCmp.opposite
  constructor
  · rintro (_ | _ | ⟨hmem, hbound⟩ | _)
    · exact (h.unique ⟨hmem, hbound⟩).symm
    · exact absurd h.mem List.not_mem_nil
  · rintro rfl
    exact .min h.mem h.bound

theorem gives_sum (hne : values ≠ []) :
    sum.Gives values result ↔ Value.total values = .ok result := by
  constructor
  · rintro (_ | _ | _ | ⟨-, htotal⟩ | _ | _)
    · exact htotal
    · exact absurd rfl hne
  · exact .sum hne

/-- The sum is a number, so there is a mean of it. -/
theorem gives_average (hknown : ∀ value ∈ values, value ≠ .null) (hne : values ≠ []) :
    average.Gives values result ↔ ∃ total, Value.total values = .ok total ∧
      (Accumulator.average values.length total).value = .ok result := by
  obtain ⟨first, rest, rfl⟩ := List.exists_cons_of_ne_nil hne
  constructor
  · rintro (_ | _ | _ | _ | ⟨-, htotal, hnumber, hmean⟩)
    refine ⟨_, htotal, ?_⟩
    cases (Value.isNumber_total hknown (.integer 0) htotal).2 <;> cases hnumber <;> exact hmean
  · rintro ⟨total, htotal, h⟩
    cases (Value.isNumber_total hknown (.integer 0) htotal).2 <;> exact .average hne htotal rfl h

/-- What is gathered of values that are not NULL is in the end what the
function gives for them. -/
theorem gather_eq_ok_of_known (hknown : ∀ value ∈ values, value ≠ .null) :
    (values.foldlM Accumulator.add (initial function) >>= Accumulator.value) = .ok result ↔
      function.Gives values result := by
  by_cases hcount : function = .count
  · subst hcount
    rw [initial, gather_count hknown, Result.ok_bind, Nat.zero_add]
    constructor
    · intro h
      cases h
      exact .count
    · rintro ⟨⟩
      · rfl
      · contradiction
  · by_cases hne : values = []
    · subst hne
      rw [gives_nil hcount, List.foldlM_nil, pure_bind]
      have hnull : (initial function).value = .ok .null := by
        cases function <;> first | rfl | contradiction
      rw [hnull, Except.ok.injEq, eq_comm]
    · cases function with
      | count => contradiction
      | average =>
          rw [gives_average hknown hne, initial, gather_average hknown, Nat.zero_add]
          simp only [Result.bind_eq_ok, Result.map_eq_ok, exists_exists_and_eq_and]
          rfl
      | sum =>
          rw [gives_sum hne, initial, gather_sum hknown hne]
          simp only [Result.bind_eq_ok, Result.map_eq_ok, exists_exists_and_eq_and]
          exact ⟨fun ⟨total, htotal, h⟩ => Except.ok.inj h ▸ htotal, fun h => ⟨_, h, rfl⟩⟩
      | max =>
          obtain ⟨greatest, hlast, hgather⟩ := gather_max hknown hne
          rw [gives_max hlast, initial, hgather, Result.ok_bind, Accumulator.value, Except.ok.injEq,
            eq_comm]
          rfl
      | min =>
          obtain ⟨least, hlast, hgather⟩ := gather_min hknown hne
          rw [gives_min hlast, initial, hgather, Result.ok_bind, Accumulator.value, Except.ok.injEq,
            eq_comm]
          rfl

/-- What is gathered of any values is what the function gives for those
that are not NULL. -/
theorem gather_eq_ok :
    (values.foldlM Accumulator.add (initial function) >>= Accumulator.value) = .ok result ↔
      function.Gives (Value.known values) result := by
  rw [gather_known]
  exact gather_eq_ok_of_known Value.ne_null_of_known

/-- Only a sum can be missing: NULL or an extreme there always is, and of
a sum always a mean. -/
theorem exists_gives (hknown : ∀ value ∈ values, value ≠ .null) :
    (∃ result, function.Gives values result) ↔
      (function.sums = true → ∃ total, Value.total values = .ok total) := by
  by_cases hne : values = []
  · subst hne
    refine iff_of_true ?_ fun _ => ⟨.integer 0, rfl⟩
    by_cases hcount : function = .count
    · subst hcount
      exact ⟨_, .count⟩
    · exact ⟨_, .nothing hcount⟩
  · cases function with
    | count => exact iff_of_true ⟨_, .count⟩ nofun
    | max =>
        obtain ⟨greatest, hlast, -⟩ := gather_max hknown hne
        exact iff_of_true ⟨greatest, (gives_max hlast).mpr rfl⟩ nofun
    | min =>
        obtain ⟨least, hlast, -⟩ := gather_min hknown hne
        exact iff_of_true ⟨least, (gives_min hlast).mpr rfl⟩ nofun
    | sum => simp only [gives_sum hne, sums, forall_const]
    | average =>
        simp only [gives_average hknown hne, sums, forall_const]
        refine ⟨fun ⟨_, total, htotal, _⟩ => ⟨total, htotal⟩, fun ⟨total, htotal⟩ => ?_⟩
        obtain ⟨first, rest, rfl⟩ := List.exists_cons_of_ne_nil hne
        cases (Value.isNumber_total hknown (.integer 0) htotal).2 <;> exact ⟨_, _, htotal, rfl⟩

end Aggregate

end DialectDb
