/-
What grouping and aggregating means, without the map of groups. The keys
are the different values that the grouping formulas have, in ascending
order. Each makes one row, of the key and of what each aggregate call
gives for the rows that have this key, in the order they came.

The program takes the rows in one by one and adds the values of all
calls to what it has gathered for their group. For a single call this is
to gather its own values (`AggregateCall.gives_iff`), and it fails only
where a formula or a sum does.
-/
import Mathlib.Data.List.Induction
import Mathlib.Data.List.Sort
import DialectDb.Proofs.Aggregates
import DialectDb.Proofs.Groups

namespace DialectDb

-- ============================================================ one call

namespace AggregateCall

variable {call : AggregateCall} {read : List Row}

/-- The values that the argument of a call has on some rows. -/
abbrev Values (call : AggregateCall) (read : List Row) (values : List Value) : Prop :=
  List.Forall₂ (fun row value => call.argument.eval row = .ok value) read values

theorem Values.unique {values others : List Value} (h : call.Values read values)
    (hothers : call.Values read others) : values = others :=
  Except.ok.inj ((Result.mapM_eq_ok.mpr h).symm.trans (Result.mapM_eq_ok.mpr hothers))

/-- What a call gives for the rows of a group. -/
def Gives (call : AggregateCall) (read : List Row) (result : Value) : Prop :=
  ∃ values, call.Values read values ∧
    call.function.Gives (Value.known values) result

/-- Takes a row into the accumulator of a call. -/
def take (call : AggregateCall) (a : Accumulator) (row : Row) : Result Accumulator := do
  a.add (← call.argument.eval row)

/-- To take in rows is to gather the values of the argument. -/
theorem foldlM_take_eq_ok {a after : Accumulator} :
    read.foldlM call.take a = .ok after ↔
      ∃ values, call.Values read values ∧
        values.foldlM Accumulator.add a = .ok after := by
  induction read generalizing a with
  | nil => simp
  | cons row read ih =>
      rw [List.foldlM_cons, take]
      simp only [Result.bind_eq_ok, ih, List.forall₂_cons_left_iff]
      constructor
      · rintro ⟨mid, ⟨value, hvalue, hmid⟩, values, hvalues, h⟩
        refine ⟨_, ⟨value, values, hvalue, hvalues, rfl⟩, ?_⟩
        rw [List.foldlM_cons, hmid]
        exact h
      · rintro ⟨_, ⟨value, values, hvalue, hvalues, rfl⟩, h⟩
        rw [List.foldlM_cons, Result.bind_eq_ok] at h
        obtain ⟨mid, hmid, h⟩ := h
        exact ⟨mid, ⟨value, hvalue, hmid⟩, values, hvalues, h⟩

theorem gives_iff {result : Value} :
    call.Gives read result ↔ ∃ a, read.foldlM call.take (.initial call.function) = .ok a ∧
      a.value = .ok result := by
  simp only [Gives, foldlM_take_eq_ok, ← Aggregate.gather_eq_ok, Result.bind_eq_ok]
  constructor
  · rintro ⟨values, hvalues, a, ha, h⟩
    exact ⟨a, ⟨values, hvalues, ha⟩, h⟩
  · rintro ⟨a, ⟨values, hvalues, ha⟩, h⟩
    exact ⟨values, hvalues, a, ha, h⟩

/-- A call gives something iff its argument can be evaluated on the rows
and, where it needs their sum, the values can be added. -/
theorem exists_gives_iff : (∃ result, call.Gives read result) ↔
    ∃ values, call.Values read values ∧
      (call.function.sums = true → ∃ total, Value.total (Value.known values) = .ok total) := by
  simp only [Gives, ← Aggregate.exists_gives Value.ne_null_of_known, ← exists_and_left]
  exact exists_comm

end AggregateCall

namespace Grouping

variable {g : Grouping} {read : List Row} {key : Row}

-- =========================================================== all calls

/-- The accumulators of several calls do not meet. -/
theorem foldlM_addValues_cons {call : AggregateCall} {calls : List AggregateCall}
    {a : Accumulator} {before after : List Accumulator} :
    read.foldlM (fun accumulators row => addValues row (call :: calls) accumulators) (a :: before) =
        .ok after ↔
      ∃ b rest, read.foldlM call.take a = .ok b ∧
        read.foldlM (fun accumulators row => addValues row calls accumulators) before = .ok rest ∧
        after = b :: rest := by
  induction read generalizing a before with
  | nil =>
      constructor
      · intro h
        cases h
        exact ⟨a, before, rfl, rfl, rfl⟩
      · rintro ⟨_, _, ⟨⟩, ⟨⟩, rfl⟩
        rfl
  | cons row read ih =>
      simp only [List.foldlM_cons, addValues, AggregateCall.take, Result.bind_eq_ok]
      constructor
      · rintro ⟨_, ⟨value, hvalue, mid, hmid, others, hothers, h⟩, hread⟩
        cases h
        obtain ⟨b, rest, hb, hrest, rfl⟩ := ih.mp hread
        exact ⟨b, rest, ⟨mid, ⟨value, hvalue, hmid⟩, hb⟩, ⟨others, hothers, hrest⟩, rfl⟩
      · rintro ⟨b, rest, ⟨mid, ⟨value, hvalue, hmid⟩, hb⟩, ⟨others, hothers, hrest⟩, rfl⟩
        exact ⟨_, ⟨value, hvalue, mid, hmid, others, hothers, rfl⟩, ih.mpr ⟨b, rest, hb, hrest, rfl⟩⟩

theorem aggregated_eq_ok {accumulators : List Accumulator} :
    g.aggregated read = .ok accumulators ↔
      List.Forall₂ (fun call a => read.foldlM call.take (.initial call.function) = .ok a) g.calls
        accumulators := by
  unfold aggregated initial
  induction g.calls generalizing accumulators with
  | nil =>
      have hnone : read.foldlM (fun accumulators row => addValues row [] accumulators) [] =
          .ok [] := by
        induction read with
        | nil => rfl
        | cons row read ih => exact ih
      rw [List.map_nil, hnone, List.forall₂_nil_left_iff, Except.ok.injEq, eq_comm]
  | cons call calls ih =>
      rw [List.map_cons, foldlM_addValues_cons, List.forall₂_cons_left_iff]
      simp only [ih]

/-- The accumulators tell what each call gives. -/
theorem aggregated_value_eq_ok {results : List Value} :
    (g.aggregated read >>= List.mapM Accumulator.value) = .ok results ↔
      List.Forall₂ (fun call result => call.Gives read result) g.calls results := by
  simp only [Result.bind_eq_ok, aggregated_eq_ok, Result.mapM_eq_ok, AggregateCall.gives_iff]
  exact Result.forall₂_comp_iff.symm

-- =============================================================== groups

/-- What a row tells of a group: the key, and what each call gives for
the rows of the group. -/
def Describes (g : Grouping) (read : List Row) (key out : Row) : Prop :=
  ∃ results, out = key ++ results ∧
    List.Forall₂ (fun call result => call.Gives (g.members read key) result) g.calls results

theorem rowOf_eq_ok_iff {out : Row} : g.rowOf read key = .ok out ↔ g.Describes read key out := by
  have hrow : g.rowOf read key =
      (key ++ ·) <$> (g.aggregated (g.members read key) >>= List.mapM Accumulator.value) := by
    unfold rowOf groupRow
    cases g.aggregated (g.members read key) <;> rfl
  rw [hrow, Result.map_eq_ok]
  simp only [aggregated_value_eq_ok, Describes]
  exact exists_congr fun results => and_comm.trans (and_congr_left' eq_comm)

-- ============================================================ all rows

/-- The different keys of some rows have one ascending order. -/
theorem Grouped.unique {keys others : List Row} (h : g.Grouped read keys)
    (hothers : g.Grouped read others) : keys = others := by
  have : Std.Antisymm fun a b => Value.totalCompareRows a b = .lt :=
    ⟨fun a b hlt hgt => absurd hgt (Std.OrientedCmp.not_lt_of_lt hlt)⟩
  have : Std.Irrefl fun a b => Value.totalCompareRows a b = .lt :=
    ⟨fun a hlt => absurd hlt (Std.OrientedCmp.not_lt_of_lt hlt)⟩
  exact h.ordered.eq_of_mem_iff hothers.ordered fun key => (h.mem key).trans (hothers.mem key).symm

/-- Rows can be taken in where they have keys and their groups can be
aggregated: what was gathered before a row is part of what is gathered
of its group. -/
theorem exists_foldlM_addRow (hkeyed : ∀ row ∈ read, ∃ key, Formula.evalList row g.keys = .ok key)
    (hgroups : ∀ key, ∃ accumulators, g.aggregated (g.members read key) = .ok accumulators) :
    ∃ groups, read.foldlM g.addRow ∅ = .ok groups := by
  induction read using List.reverseRecOn with
  | nil => exact ⟨∅, rfl⟩
  | append_singleton read row ih =>
      have hbefore : ∀ key, ∃ accumulators,
          g.aggregated (g.members read key) = .ok accumulators ∧
            ∃ after, (g.members [row] key).foldlM
              (fun accumulators row => addValues row g.calls accumulators) accumulators =
                .ok after := by
        intro key
        obtain ⟨after, hafter⟩ := hgroups key
        rw [members_append, aggregated, List.foldlM_append, Result.bind_eq_ok] at hafter
        obtain ⟨accumulators, haccumulators, hrow⟩ := hafter
        exact ⟨accumulators, haccumulators, after, hrow⟩
      obtain ⟨before, hread⟩ := ih
        (fun other hother => hkeyed other (List.mem_append_left _ hother))
        (fun key => (hbefore key).imp fun _ h => h.1)
      obtain ⟨key, hkey⟩ := hkeyed row (List.mem_append_right _ (List.mem_singleton.mpr rfl))
      have hmembers : g.members [row] key = [row] :=
        List.filter_cons_of_pos (inGroup_iff.mpr hkey)
      obtain ⟨accumulators, haccumulators, after, hafter⟩ := hbefore key
      have hheld := ((hold_empty g).addRows hread).aggregated key
      rw [List.nil_append, haccumulators, Except.ok.injEq] at hheld
      rw [hmembers, List.foldlM_cons, hheld] at hafter
      obtain ⟨values, hvalues, -⟩ := Result.bind_eq_ok.mp hafter
      refine ⟨before.insert key values, ?_⟩
      rw [List.foldlM_append, hread, Result.ok_bind, List.foldlM_cons, addRow, hkey,
        Result.ok_bind, hvalues]
      rfl

theorem Describes.aggregated {out : Row} (h : g.Describes read key out) :
    ∃ accumulators, g.aggregated (g.members read key) = .ok accumulators := by
  obtain ⟨accumulators, haccumulators, -⟩ := Result.bind_eq_ok.mp (rowOf_eq_ok_iff.mpr h)
  exact ⟨accumulators, haccumulators⟩

theorem exists_describes_iff : (∃ out, g.Describes read key out) ↔
    ∀ call ∈ g.calls, ∃ result, call.Gives (g.members read key) result := by
  rw [← Result.exists_forall₂]
  constructor
  · rintro ⟨_, results, -, hresults⟩
    exact ⟨results, hresults⟩
  · rintro ⟨results, hresults⟩
    exact ⟨key ++ results, results, rfl, hresults⟩

/-- Where the groups can be described, so can one without rows. -/
theorem Grouped.describes {keys out : List Row} (h : g.Grouped read keys)
    (hout : List.Forall₂ (g.Describes read) keys out) (key : Row) :
    ∃ out, g.Describes read key out := by
  by_cases hkey : key ∈ keys
  · exact Result.exists_forall₂.mp ⟨out, hout⟩ key hkey
  · have hnone : g.members read key = [] := by
      refine List.eq_nil_iff_forall_not_mem.mpr fun row hrow => hkey ?_
      exact (h.mem key).mpr (.inl ⟨row, mem_members.mp hrow⟩)
    rw [exists_describes_iff, hnone]
    exact fun call _ => AggregateCall.exists_gives_iff.mpr ⟨[], .nil, fun _ => ⟨.integer 0, rfl⟩⟩

/-- Nothing fails on some rows: the formulas can be evaluated on each of
them and, for the functions that need it, the values of each group can be
added. -/
structure Evaluates (g : Grouping) (read : List Row) : Prop where
  keyed : ∀ row ∈ read, ∃ key, Formula.evalList row g.keys = .ok key
  valued : ∀ call ∈ g.calls, ∀ row ∈ read, ∃ value, call.argument.eval row = .ok value
  added : ∀ call ∈ g.calls, call.function.sums = true → ∀ key values,
    call.Values (g.members read key) values →
      ∃ total, Value.total (Value.known values) = .ok total

theorem evaluates_iff : g.Evaluates read ↔
    (∀ row ∈ read, ∃ key, Formula.evalList row g.keys = .ok key) ∧
      ∀ key, ∃ out, g.Describes read key out := by
  simp only [exists_describes_iff, AggregateCall.exists_gives_iff]
  constructor
  · intro h
    refine ⟨h.keyed, fun key call hcall => ?_⟩
    have hvalued : ∀ row ∈ g.members read key, ∃ value, call.argument.eval row = .ok value :=
      fun row hrow => h.valued call hcall row (mem_members.mp hrow).1
    obtain ⟨values, hvalues⟩ := Result.exists_forall₂.mpr hvalued
    exact ⟨values, hvalues, fun hsums => h.added call hcall hsums key values hvalues⟩
  · rintro ⟨hkeyed, hcalls⟩
    refine ⟨hkeyed, fun call hcall row hrow => ?_, fun call hcall hsums key values hvalues => ?_⟩
    · obtain ⟨key, hkey⟩ := hkeyed row hrow
      obtain ⟨values, hvalues, -⟩ := hcalls key call hcall
      exact Result.exists_forall₂.mp ⟨values, hvalues⟩ row (mem_members.mpr ⟨hrow, hkey⟩)
    · obtain ⟨others, hothers, hadded⟩ := hcalls key call hcall
      cases hvalues.unique hothers
      exact hadded hsums

-- =============================================================== input

theorem exists_rows {input : Rows} (hread : input.collect = .ok read)
    (hkeyed : ∀ row ∈ read, ∃ key, Formula.evalList row g.keys = .ok key)
    (hgroups : ∀ key, ∃ out, g.Describes read key out) : ∃ rows, g.rows input = .ok rows := by
  obtain ⟨groups, hrows⟩ :=
    exists_foldlM_addRow hkeyed fun key => (hgroups key).elim fun _ hout => hout.aggregated
  have hfold : input.fold g.addRow ∅ = .ok groups := Rows.fold_eq_ok.mpr ⟨read, hread, hrows⟩
  rw [rows, hfold, Result.ok_bind]
  split
  · exact ⟨_, rfl⟩
  · exact ⟨_, rfl⟩

/-- The rows that come out are described by their keys. -/
theorem collect_eq_ok_of_rows {input rows : Rows} (hread : input.collect = .ok read)
    (h : g.rows input = .ok rows) : ∃ keys, g.Grouped read keys ∧
      ∀ out, rows.collect = .ok out ↔ List.Forall₂ (g.Describes read) keys out := by
  obtain ⟨others, keys, hothers, hkeys, hrows⟩ := rows_eq_ok h
  cases hread.symm.trans hothers
  refine ⟨keys, hkeys, fun out => ?_⟩
  rw [Rows.collect_eq, hrows, List.mapM_map, Result.mapM_eq_ok]
  simp only [Function.comp_apply, id_eq, rowOf_eq_ok_iff]

theorem collect_rows_eq_ok {input : Rows} (hread : input.collect = .ok read) {out : List Row} :
    (g.rows input >>= Rows.collect) = .ok out ↔
      ∃ keys, g.Grouped read keys ∧ List.Forall₂ (g.Describes read) keys out := by
  constructor
  · intro h
    obtain ⟨rows, hrows, hout⟩ := Result.bind_eq_ok.mp h
    obtain ⟨keys, hkeys, hcollect⟩ := collect_eq_ok_of_rows hread hrows
    exact ⟨keys, hkeys, (hcollect out).mp hout⟩
  · rintro ⟨keys, hkeys, hout⟩
    obtain ⟨rows, hrows⟩ := exists_rows hread hkeys.keyed (hkeys.describes hout)
    obtain ⟨others, hothers, hcollect⟩ := collect_eq_ok_of_rows hread hrows
    rw [hrows, Result.ok_bind, hcollect, hothers.unique hkeys]
    exact hout

theorem exists_collect_rows_iff {input : Rows} (hread : input.collect = .ok read) :
    (∃ out, (g.rows input >>= Rows.collect) = .ok out) ↔ g.Evaluates read := by
  rw [evaluates_iff]
  constructor
  · rintro ⟨out, h⟩
    obtain ⟨keys, hkeys, hout⟩ := (collect_rows_eq_ok hread).mp h
    exact ⟨hkeys.keyed, hkeys.describes hout⟩
  · rintro ⟨hkeyed, hgroups⟩
    obtain ⟨rows, hrows⟩ := exists_rows hread hkeyed hgroups
    obtain ⟨keys, -, hcollect⟩ := collect_eq_ok_of_rows hread hrows
    obtain ⟨out, hout⟩ := Result.exists_forall₂.mpr fun key (_ : key ∈ keys) => hgroups key
    refine ⟨out, ?_⟩
    rw [hrows, Result.ok_bind, hcollect]
    exact hout

/-- Without grouping formulas there is one group, whatever the rows. -/
theorem Grouped.keys_eq {keys : List Row} (hkeys : g.keys = []) (h : g.Grouped read keys) :
    keys = [[]] := by
  have hsingle : g.Grouped read [[]] := by
    refine ⟨fun key => ?_, List.pairwise_singleton _ _, h.keyed⟩
    rw [List.mem_singleton]
    refine ⟨fun hkey => .inr ⟨hkeys, hkey⟩, ?_⟩
    rintro (⟨row, -, hkey⟩ | ⟨-, hkey⟩)
    · rw [hkeys] at hkey
      exact (Except.ok.inj hkey).symm
    · exact hkey
  exact h.unique hsingle

/-- Aggregation means what it gives for each group. It succeeds iff
nothing fails on the rows, which is so of the formulas on each row and of
the sums of each group. Then there is one row for each different key, in
ascending order, with the key and what each call gives for the rows of
the key in the order they came. Without grouping formulas this is a
single row, also for no rows. -/
theorem rows_means (g : Grouping) {input : Rows} {read : List Row}
    (hread : input.collect = .ok read) :
    ((∃ out, (g.rows input >>= Rows.collect) = .ok out) ↔ g.Evaluates read) ∧
      (∀ out, (g.rows input >>= Rows.collect) = .ok out ↔
        ∃ keys, g.Grouped read keys ∧ List.Forall₂ (g.Describes read) keys out) ∧
      (g.keys = [] → ∀ out, (g.rows input >>= Rows.collect) = .ok out → out.length = 1) := by
  refine ⟨exists_collect_rows_iff hread, fun out => collect_rows_eq_ok hread, fun hkeys out h => ?_⟩
  obtain ⟨keys, hgrouped, hout⟩ := (collect_rows_eq_ok hread).mp h
  rw [← hout.length_eq, hgrouped.keys_eq hkeys, List.length_singleton]

-- How often cats and dogs were sold, for how much in all and at most, and
-- the mean of these numbers. One price is not known.
namespace Sale

def grouping : Grouping where
  keys := [.column 0]
  calls := [⟨.count, .const (.boolean true)⟩, ⟨.sum, .column 1⟩, ⟨.average, .column 1⟩,
    ⟨.max, .column 1⟩]

def sold : List Row :=
  [[.string "dog", .integer 1], [.string "cat", .integer 2], [.string "dog", .integer 4],
    [.string "dog", .null]]

def report : List Row :=
  [[.string "cat", .integer 1, .integer 2, .float (.ofInt 2), .integer 2],
    [.string "dog", .integer 3, .integer 5, .float (.ofRatio false 5 2), .integer 4]]

theorem sold_reported : (grouping.rows (.ofList sold) >>= Rows.collect) = .ok report ∧
    grouping.Evaluates sold ∧
      ∃ keys, grouping.Grouped sold keys ∧
        List.Forall₂ (grouping.Describes sold) keys report := by
  have hreport : (grouping.rows (.ofList sold) >>= Rows.collect) = .ok report := rfl
  obtain ⟨hsucceeds, hmeans, -⟩ := rows_means grouping (Rows.collect_ofList sold)
  exact ⟨hreport, hsucceeds.mp ⟨report, hreport⟩, (hmeans report).mp hreport⟩

end Sale

end Grouping

end DialectDb
