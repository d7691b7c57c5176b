/-
Aggregation does not depend on the order of the rows. The groups are the
same in every order, and so are the values that each of them has. How
many these are and which is the greatest or the least does not depend on
their order. A sum of integers is computed without rounding, so it is
the same in every order in which no partial sum overflows. Sums of
floating point numbers are rounded at each step, and are left out.
-/
import Mathlib.Algebra.BigOperators.Group.List.Basic
import Mathlib.Algebra.Ring.Int.Defs
import Mathlib.Data.List.Perm.Basic
import DialectDb.Proofs.Aggregation

namespace DialectDb

-- ================================================================ sums

namespace Value

/-- What a value counts for in a sum of integers. -/
def amount : Value → Int
  | .integer i => i.toInt
  | _ => 0

/-- The sum of integers is the exact one. -/
theorem toInt_total {values : List Value} (hinteger : ∀ value ∈ values, ∃ i, value = .integer i)
    {i : Int64} {total : Value} (h : values.foldlM add (.integer i) = .ok total) :
    ∃ j, total = .integer j ∧ j.toInt = i.toInt + (values.map amount).sum := by
  induction values generalizing i with
  | nil =>
      cases h
      exact ⟨i, rfl, by rw [List.map_nil, List.sum_nil, Int.add_zero]⟩
  | cons value values ih =>
      obtain ⟨⟨k, rfl⟩, hrest⟩ := List.forall_mem_cons.mp hinteger
      obtain ⟨mid, hmid, h⟩ := Result.bind_eq_ok.mp h
      obtain ⟨j, rfl, hj⟩ := ofInt_eq_ok hmid
      obtain ⟨total, htotal, hsum⟩ := ih hrest h
      refine ⟨total, htotal, ?_⟩
      rw [hsum, hj, List.map_cons, List.sum_cons, Int.add_assoc]
      rfl

/-- Without floating point numbers, a sum that can be computed in two
orders is the same. -/
theorem total_unique {values others : List Value} (hperm : values.Perm others)
    (hknown : ∀ value ∈ values, value ≠ .null) (hexact : ∀ value ∈ values, ∀ d, value ≠ .float d)
    {total other : Value} (htotal : Value.total values = .ok total)
    (hother : Value.total others = .ok other) : total = other := by
  have hinteger : ∀ value ∈ values, ∃ i, value = .integer i := by
    intro value hvalue
    cases (isNumber_total hknown (.integer 0) htotal).1 value hvalue with
    | integer i => exact ⟨i, rfl⟩
    | float d => exact absurd rfl (hexact _ hvalue d)
  obtain ⟨i, rfl, hi⟩ := toInt_total hinteger htotal
  obtain ⟨j, rfl, hj⟩ := toInt_total (fun value hvalue => hinteger value (hperm.mem_iff.mpr hvalue))
    hother
  rw [(hperm.map amount).sum_eq, ← hj] at hi
  rw [Int64.toInt_inj.mp hi]

/-- The last of some values is the last of them in every order. -/
theorem IsLast.perm {compare : Value → Value → Ordering} {values others : List Value}
    {last : Value} (h : IsLast compare values last) (hperm : values.Perm others) :
    IsLast compare others last where
  mem := hperm.mem_iff.mp h.mem
  bound := fun value hvalue => h.bound value (hperm.mem_iff.mpr hvalue)

end Value

-- =========================================================== one group

/-- Values that an aggregate function has in two orders are the same. -/
theorem Aggregate.Gives.unique {function : Aggregate} {values others : List Value}
    {result other : Value} (hperm : values.Perm others)
    (hknown : ∀ value ∈ values, value ≠ .null)
    (hexact : function.sums = true → ∀ value ∈ values, ∀ d, value ≠ .float d)
    (h : function.Gives values result) (hother : function.Gives others other) :
    result = other := by
  cases h with
  | count =>
      rcases hother with _ | _ | _ | _ | _ | hcount
      · rw [hperm.length_eq]
      · exact absurd rfl hcount
  | max hmem hbound =>
      have hlast : Value.IsLast Value.totalCompare values result := ⟨hmem, hbound⟩
      exact ((gives_max (hlast.perm hperm)).mp hother).symm
  | min hmem hbound =>
      have hlast : Value.IsLast (fun a b => Value.totalCompare b a) values result := ⟨hmem, hbound⟩
      exact ((gives_min (hlast.perm hperm)).mp hother).symm
  | sum hne htotal =>
      have hne' : others ≠ [] := fun hnil => hne (List.perm_nil.mp (hnil ▸ hperm))
      exact Value.total_unique hperm hknown (hexact rfl) htotal ((gives_sum hne').mp hother)
  | average hne htotal hnumber hmean =>
      rcases hother with _ | _ | _ | _ | ⟨-, htotal', hnumber', hmean'⟩ | _
      · cases Value.total_unique hperm hknown (hexact rfl) htotal htotal'
        cases hnumber.symm.trans hnumber'
        rw [hperm.length_eq] at hmean
        exact Except.ok.inj (hmean.symm.trans hmean')
      · exact absurd (List.perm_nil.mp hperm) hne
  | nothing hcount =>
      rw [List.nil_perm.mp hperm] at hother
      exact ((gives_nil hcount).mp hother).symm

/-- The values of an argument change their order with the rows. -/
theorem AggregateCall.Values.perm {call : AggregateCall} {read shuffled : List Row}
    {values others : List Value} (hperm : read.Perm shuffled) (h : call.Values read values)
    (hothers : call.Values shuffled others) : values.Perm others := by
  obtain ⟨same, hsame, hvalues⟩ := List.perm_comp_forall₂ hperm.symm h
  rw [Values.unique hothers hsame]
  exact hvalues.symm

namespace Grouping

variable {g : Grouping} {read shuffled keys : List Row} {key out other : Row}

theorem members_perm (hperm : read.Perm shuffled) (key : Row) :
    (g.members read key).Perm (g.members shuffled key) :=
  hperm.filter _

theorem Grouped.perm (h : g.Grouped read keys) (hperm : read.Perm shuffled) :
    g.Grouped shuffled keys where
  mem := by simpa only [HasGroup, hperm.mem_iff] using h.mem
  ordered := h.ordered
  keyed := fun row hrow => h.keyed row (hperm.mem_iff.mpr hrow)

/-- No sum or average is taken of a floating point number. -/
def SumsExactly (g : Grouping) (read : List Row) : Prop :=
  ∀ call ∈ g.calls, call.function.sums = true →
    ∀ row ∈ read, ∀ d, call.argument.eval row ≠ .ok (.float d)

/-- A group is described alike in two orders of its rows. -/
theorem Describes.unique (hperm : read.Perm shuffled) (hexact : g.SumsExactly read)
    (h : g.Describes read key out) (hother : g.Describes shuffled key other) : out = other := by
  obtain ⟨results, rfl, hresults⟩ := h
  obtain ⟨others, rfl, hothers⟩ := hother
  congr 1
  refine Result.forall₂_unique (fun call hcall result other hresult hother => ?_) hresults hothers
  obtain ⟨values, hvalues, hresult⟩ := hresult
  obtain ⟨others, hothers, hother⟩ := hother
  have hperm' := (hvalues.perm (members_perm hperm key) hothers).filter (· ≠ .null)
  refine hresult.unique hperm' Value.ne_null_of_known (fun hsums value hvalue d => ?_) hother
  rintro rfl
  have hmem := (Result.mem_mapM (Result.mapM_eq_ok.mpr hvalues)).mp (List.mem_filter.mp hvalue).1
  obtain ⟨row, hrow, heval⟩ := hmem
  exact hexact call hcall hsums row (mem_members.mp hrow).1 d heval

/-- Aggregation does not depend on the order of the rows. Where it
succeeds for rows in two orders and no floating point numbers are summed
up, the same rows come out in the same order. -/
theorem rows_shuffled (g : Grouping) {input shuffledInput : Rows} {read shuffled : List Row}
    (hread : input.collect = .ok read) (hshuffled : shuffledInput.collect = .ok shuffled)
    (hperm : read.Perm shuffled) (hexact : g.SumsExactly read) {out others : List Row}
    (hout : (g.rows input >>= Rows.collect) = .ok out)
    (hothers : (g.rows shuffledInput >>= Rows.collect) = .ok others) : out = others := by
  obtain ⟨keys, hkeys, hout⟩ := (collect_rows_eq_ok hread).mp hout
  obtain ⟨keys', hkeys', hothers⟩ := (collect_rows_eq_ok hshuffled).mp hothers
  cases (hkeys.perm hperm).unique hkeys'
  refine Result.forall₂_unique (fun key _ row other hrow hother => ?_) hout hothers
  exact hrow.unique hperm hexact hother

-- The same sales, the last of them first.
namespace Sale

theorem sold_backwards :
    sold.Perm sold.reverse ∧ grouping.SumsExactly sold ∧
      (grouping.rows (.ofList sold.reverse) >>= Rows.collect) = .ok report ∧
      ∀ others, (grouping.rows (.ofList sold.reverse) >>= Rows.collect) = .ok others →
        report = others := by
  have hexact : grouping.SumsExactly sold := by
    simp [Grouping.SumsExactly, grouping, sold, Aggregate.sums, Formula.eval]
  have hreport : (grouping.rows (.ofList sold) >>= Rows.collect) = .ok report := rfl
  refine ⟨(List.reverse_perm sold).symm, hexact, rfl, fun others hothers => ?_⟩
  exact rows_shuffled grouping (Rows.collect_ofList sold) (Rows.collect_ofList sold.reverse)
    (List.reverse_perm sold).symm hexact hreport hothers

end Sale

end Grouping

end DialectDb
