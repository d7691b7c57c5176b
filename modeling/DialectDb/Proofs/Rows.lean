/-
Streams of rows as lists. What a reader of a whole stream gets depends
on `toList` alone: the steps without rows make no difference to it, and
neither does how far the stream is computed.
-/
import Std.Data.HashSet.Lemmas
import DialectDb.Rows
import DialectDb.Proofs.Result

namespace DialectDb.Rows

/-- Reading takes in row after row of what the rows are in the end. -/
theorem fold_eq {α : Type} (step : α → Row → Result α) (a : α) (rows : Rows) :
    rows.fold step a = rows.toList.foldlM (fun a row => row >>= step a) a := by
  induction rows generalizing a with
  | done => rfl
  | next row rest ih =>
      cases row with
      | error e => rfl
      | ok row =>
          rw [fold, toList, List.foldlM_cons, Result.ok_bind]
          cases step a row with
          | error e => rfl
          | ok b => exact ih () b
  | wait rest ih => exact ih () a

/-- To collect the rows is to go over them, up to the first failure. -/
theorem collect_eq (rows : Rows) : rows.collect = rows.toList.mapM id := by
  -- `collect` gathers in reverse, so the rows before come last
  have hfold : ∀ (results : List (Result Row)) (before : List Row),
      results.foldlM (fun read row => row >>= fun row => .ok (row :: read)) before =
        (fun read => read.reverse ++ before) <$> results.mapM id := by
    intro results
    induction results with
    | nil => intro before; rfl
    | cons row rest ih =>
        intro before
        rw [List.foldlM_cons, List.mapM_cons]
        cases row with
        | error e => rfl
        | ok row =>
            show rest.foldlM _ (row :: before) =
              _ <$> (rest.mapM id >>= fun rest => pure (row :: rest))
            rw [ih]
            simp
  rw [collect, fold_eq, hfold]
  simp

theorem collect_eq_ok {rows : Rows} {read : List Row} :
    rows.collect = .ok read ↔ rows.toList = read.map .ok := by
  rw [collect_eq, Result.mapM_eq_ok, ← List.forall₂_eq_eq_eq, List.forall₂_map_right_iff]
  rfl

/-- Of rows that can all be read, so can the first ones. -/
theorem collect_take {rows : Rows} {read : List Row} (h : rows.collect = .ok read) (n : Nat) :
    (rows.take n).collect = .ok (read.take n) := by
  rw [collect_eq_ok] at h ⊢
  rw [toList_take, h, List.map_take]

@[simp] theorem collect_ofList (rows : List Row) : (ofList rows).collect = .ok rows := by
  rw [collect_eq_ok, toList_ofList]

theorem drop_zero (rows : Rows) : rows.drop 0 = rows := by
  induction rows with
  | done => rfl
  | next row rest => rfl
  | wait rest ih => exact congrArg wait (funext fun _ => ih ())

-- =========================================================== filtering

/-- What a condition leaves of a row or a failure in its place. -/
def passed (condition : Formula) : Result Row → Option (Result Row)
  | .error e => some (.error e)
  | .ok row =>
    match Formula.holds (some condition) row with
    | .ok true => some (.ok row)
    | .ok false => none
    | .error e => some (.error e)

theorem toList_filter (condition : Formula) (rows : Rows) :
    (rows.filter condition).toList = rows.toList.filterMap (passed condition) := by
  induction rows with
  | done => rfl
  | next row rest ih =>
      cases row with
      | error e => simp [filter, toList, passed, ih]
      | ok row =>
          cases hholds : Formula.holds (some condition) row with
          | error e => simp [filter, toList, passed, hholds, ih]
          | ok keep => cases keep <;> simp [filter, toList, passed, hholds, ih]
  | wait rest ih => simp [filter, toList, ih]

/-- The rows that a mask marks. -/
def marked (rows : List Row) (mask : List Bool) : List Row :=
  (rows.zip mask).filterMap fun (row, keep) => if keep then some row else none

theorem marked_cons (row : Row) (rows : List Row) (keep : Bool) (mask : List Bool) :
    marked (row :: rows) (keep :: mask) =
      if keep then row :: marked rows mask else marked rows mask := by
  cases keep <;> simp [marked]

theorem marked_subset (rows : List Row) (mask : List Bool) : marked rows mask ⊆ rows := by
  intro row hrow
  obtain ⟨⟨other, keep⟩, hmem, hkeep⟩ := List.mem_filterMap.mp hrow
  cases keep with
  | false => cases hkeep
  | true =>
      cases hkeep
      exact (List.of_mem_zip hmem).1

/-- The rows of a list that pass a condition are those that its mask
marks, and the first failure is the same. -/
theorem collect_filter_ofList (condition : Formula) (rows : List Row) :
    ((ofList rows).filter condition).collect =
      marked rows <$> rows.mapM (Formula.holds (some condition)) := by
  rw [collect_eq, toList_filter, toList_ofList, List.filterMap_map]
  induction rows with
  | nil => rfl
  | cons row rows ih =>
      cases hholds : Formula.holds (some condition) row with
      | error e => simp [passed, hholds]
      | ok keep => cases keep <;> simp [passed, hholds, ih, marked_cons]

/-- What passes was there before. -/
theorem mem_of_mem_filter {condition : Formula} {rows : Rows} {row : Row}
    (h : .ok row ∈ (rows.filter condition).toList) : .ok row ∈ rows.toList := by
  rw [toList_filter] at h
  obtain ⟨result, hresult, hpassed⟩ := List.mem_filterMap.mp h
  unfold passed at hpassed
  split at hpassed
  · cases hpassed
  · split at hpassed <;> cases hpassed
    exact hresult

theorem mem_of_mem_filter_ofList {condition : Formula} {rows : List Row} {row : Row}
    (h : .ok row ∈ ((ofList rows).filter condition).toList) : row ∈ rows := by
  have hmem := mem_of_mem_filter h
  rw [toList_ofList] at hmem
  obtain ⟨other, hother, heq⟩ := List.mem_map.mp hmem
  cases heq
  exact hother

-- ========================================================== projecting

/-- Formulas that give back every row change nothing. -/
theorem collect_project_of_self {formulas : List Formula} {rows : Rows}
    (h : ∀ row, .ok row ∈ rows.toList → Formula.evalList row formulas = .ok row) :
    (rows.project formulas).collect = rows.collect := by
  rw [collect_eq, collect_eq, toList_project, List.mapM_map]
  refine Result.mapM_congr fun result hresult => ?_
  cases result with
  | error e => rfl
  | ok row => exact h row hresult

-- ========================================================== duplicates

/-- Going over rows keeps the first of each kind that has not been seen
before. -/
theorem distinctAfter_eq (seen : Std.HashSet Row) (kept rows : List Row) :
    distinctAfter seen kept rows =
      kept.reverse ++ (rows.filter fun row => !seen.contains row).eraseDups := by
  induction rows generalizing seen kept with
  | nil => simp [distinctAfter]
  | cons row rows ih =>
      unfold distinctAfter
      split
      · next hseen => rw [ih, List.filter_cons_of_neg (by simpa using hseen)]
      · next hnew =>
          have hrest : (rows.filter fun other => !(seen.insert row).contains other) =
              (rows.filter fun other => !seen.contains other).filter fun other =>
                !other == row := by
            rw [List.filter_filter]
            refine List.filter_congr fun other _ => ?_
            rw [Std.HashSet.contains_insert, Bool.not_or, BEq.comm]
          rw [ih, hrest, List.filter_cons_of_pos (by simpa using hnew), List.eraseDups_cons,
            List.reverse_cons, List.append_assoc, List.singleton_append]

/-- Of equal rows the first stays. -/
theorem distinct_eq (rows : List Row) : distinct rows = rows.eraseDups := by
  simp [distinct, distinctAfter_eq]

end DialectDb.Rows
