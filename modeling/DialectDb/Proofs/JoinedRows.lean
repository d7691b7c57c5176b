/-
The rows of a join as a list. The nested loops give them one by one, and
look ahead for the next outer row before an outer row without a match is
padded. Read to the end, they are for each outer row its combinations
with the inner rows, in order, and behind them the padded row, if any;
only failures in the places of outer rows come before it.
-/
import DialectDb.Rows.Joined
import DialectDb.Proofs.Rows

namespace DialectDb

/-- Some items, or another in their stead if there are none. -/
def orAlone {α : Type} (alone : α) : List α → List α
  | [] => [alone]
  | items => items

theorem map_orAlone {α β : Type} (f : α → β) (alone : α) (items : List α) :
    (orAlone alone items).map f = orAlone (f alone) (items.map f) := by
  cases items <;> rfl

theorem mem_orAlone {α : Type} {alone a : α} {items : List α} (h : a ∈ orAlone alone items) :
    a = alone ∨ a ∈ items := by
  cases items with
  | nil => exact .inl (List.mem_singleton.mp h)
  | cons first rest => exact .inr h

namespace Joining

variable {j : Joining} {inner : List Row}

-- ======================================================= one outer row

/-- What becomes of a combined row: it is in the result if it passes, or
else the failure to tell is. -/
def tried (j : Joining) (row : Row) : Option (Result Row) :=
  match j.passes row with
  | .ok true => some (.ok row)
  | .ok false => none
  | .error e => some (.error e)

/-- Whether a combined row passes for sure. -/
def isMatch (j : Joining) (row : Row) : Bool :=
  match j.passes row with
  | .ok keep => keep
  | .error _ => false

/-- The combinations of an outer row. -/
def trials (j : Joining) (inner : List Row) (outer : Row) : List (Result Row) :=
  (inner.map (j.combine outer)).filterMap j.tried

/-- The row that an outer row makes on its own, if it is kept. -/
def padded (j : Joining) (outer : Row) (matched : Bool) : List (Result Row) :=
  match j.padding with
  | some width =>
    if matched then [] else [.ok (j.combine outer (List.replicate width .null))]
  | none => []

/-- Whether an outer row has a match. -/
def hasMatch (j : Joining) (inner : List Row) (outer : Row) : Bool :=
  inner.any fun row => j.isMatch (j.combine outer row)

/-- The rows of an outer row. -/
def rowsOf (j : Joining) (inner : List Row) (outer : Row) : List (Result Row) :=
  j.trials inner outer ++ j.padded outer (j.hasMatch inner outer)

theorem toList_scan (j : Joining) (outer : Row) (matched : Bool) (inner : List Row)
    (rest : Bool → Rows) :
    (j.scan outer matched inner rest).toList =
      j.trials inner outer ++ (rest (matched || j.hasMatch inner outer)).toList := by
  induction inner generalizing matched with
  | nil => simp [scan, Rows.toList, trials, hasMatch]
  | cons row inner ih =>
      simp only [trials, hasMatch] at ih ⊢
      cases hpasses : j.passes (j.combine outer row) with
      | error e => simp [scan, Rows.toList, tried, isMatch, hpasses, ih]
      | ok keep => cases keep <;> simp [scan, Rows.toList, tried, isMatch, hpasses, ih]

theorem toList_pad (j : Joining) (outer : Row) (matched : Bool) (rest : Unit → Rows) :
    (j.pad outer matched rest).toList = j.padded outer matched ++ (rest ()).toList := by
  unfold pad padded
  cases j.padding with
  | none => rfl
  | some width => cases matched <;> rfl

-- ====================================================== all outer rows

/-- What is left to be given after the inner rows were tried with an
outer row, given the outer rows and failures behind it. -/
def remaining (j : Joining) (inner : List Row) (outer : Row) (matched : Bool) :
    List (Result Row) → List (Result Row)
  | [] => j.padded outer matched
  | .error e :: rest => .error e :: j.remaining inner outer matched rest
  | .ok next :: rest =>
    j.padded outer matched ++
      (j.trials inner next ++ j.remaining inner next (j.hasMatch inner next) rest)

theorem toList_proceed (j : Joining) (inner : List Row) (outer : Row) (matched : Bool)
    (rows : Rows) :
    (j.proceed inner outer matched rows).toList = j.remaining inner outer matched rows.toList := by
  induction rows generalizing outer matched with
  | done =>
      rw [proceed, toList_pad]
      exact List.append_nil _
  | wait rest ih => exact ih () outer matched
  | next row rest ih =>
      cases row with
      | error e =>
          simp only [proceed, Rows.toList, remaining]
          rw [ih]
      | ok next =>
          simp only [proceed, Rows.toList, remaining]
          rw [toList_pad, toList_scan, ih, Bool.false_or]

/-- A join is set up iff the first outer row is not a failure. -/
theorem rows_eq_ok {outer rows : Rows} (h : j.rows inner outer = .ok rows) :
    (outer.toList = [] ∧ rows.toList = []) ∨
      ∃ first rest, outer.toList = .ok first :: rest ∧
        rows.toList =
          j.trials inner first ++ j.remaining inner first (j.hasMatch inner first) rest := by
  induction outer with
  | done =>
      cases h
      exact .inl ⟨rfl, rfl⟩
  | wait rest ih => exact ih () h
  | next row rest =>
      cases row with
      | error e => cases h
      | ok first =>
          cases h
          refine .inr ⟨first, (rest ()).toList, rfl, ?_⟩
          rw [toList_scan, Bool.false_or, toList_proceed]

/-- Otherwise that failure is the result. -/
theorem error_mem_of_rows {outer : Rows} {e : Error} (h : j.rows inner outer = .error e) :
    .error e ∈ outer.toList := by
  induction outer with
  | done => cases h
  | wait rest ih => exact ih () h
  | next row rest =>
      cases row with
      | error e =>
          cases h
          exact List.mem_cons_self
      | ok first => cases h

-- ================================================= without failures

/-- The rows of an outer row of which all combinations can be told to
pass or not: those that pass, or else the padded row, if it is kept. -/
def given (j : Joining) (inner : List Row) (outer : Row) : List Row :=
  let found := (inner.map (j.combine outer)).filter j.isMatch
  match j.padding with
  | some width => orAlone (j.combine outer (List.replicate width .null)) found
  | none => found

theorem hasMatch_eq_false_iff {outer : Row} :
    j.hasMatch inner outer = false ↔ (inner.map (j.combine outer)).filter j.isMatch = [] := by
  rw [List.filter_eq_nil_iff, hasMatch, List.any_eq_false, List.forall_mem_map]

/-- The rows of an outer row are then no failures. -/
theorem rowsOf_eq_map_ok {outer : Row}
    (h : ∀ right ∈ inner, ∃ keep, j.passes (j.combine outer right) = .ok keep) :
    j.rowsOf inner outer = (j.given inner outer).map .ok := by
  have htrials : j.trials inner outer =
      ((inner.map (j.combine outer)).filter j.isMatch).map .ok := by
    rw [trials, ← List.filterMap_eq_filter, List.map_filterMap]
    refine List.filterMap_congr fun row hrow => ?_
    obtain ⟨right, hright, rfl⟩ := List.mem_map.mp hrow
    obtain ⟨keep, hkeep⟩ := h right hright
    cases keep <;> simp [tried, isMatch, hkeep, Option.guard]
  simp only [rowsOf, htrials, padded, given]
  cases j.padding with
  | none => exact List.append_nil _
  | some width =>
      cases hmatch : j.hasMatch inner outer with
      | false => simp [hasMatch_eq_false_iff.mp hmatch, orAlone]
      | true =>
          have hsome : (inner.map (j.combine outer)).filter j.isMatch ≠ [] := by
            intro hnone
            exact Bool.false_ne_true ((hasMatch_eq_false_iff.mpr hnone).symm.trans hmatch)
          obtain ⟨first, rest, hfound⟩ := List.exists_cons_of_ne_nil hsome
          simp [hfound, orAlone]

/-- Behind an outer row come the rows of the others, if none of them is a
failure. -/
theorem remaining_map_ok (outer : Row) (matched : Bool) (rest : List Row) :
    j.remaining inner outer matched (rest.map .ok) =
      j.padded outer matched ++ rest.flatMap (j.rowsOf inner) := by
  induction rest generalizing outer matched with
  | nil => exact (List.append_nil _).symm
  | cons next rest ih =>
      rw [List.map_cons, remaining, ih, List.flatMap_cons, rowsOf]
      simp only [List.append_assoc]

/-- A join of outer rows without failures gives the rows of each of them
in order. -/
theorem toList_rows {outer : Rows} {before : List Row} (houter : outer.toList = before.map .ok) :
    ∃ rows, j.rows inner outer = .ok rows ∧ rows.toList = before.flatMap (j.rowsOf inner) := by
  cases hrows : j.rows inner outer with
  | error e =>
      have hmem := error_mem_of_rows hrows
      rw [houter] at hmem
      obtain ⟨_, -, heq⟩ := List.mem_map.mp hmem
      cases heq
  | ok rows =>
      refine ⟨rows, rfl, ?_⟩
      rcases rows_eq_ok hrows with ⟨hnone, hempty⟩ | ⟨first, rest, hfirst, hlist⟩
      · rw [houter, List.map_eq_nil_iff] at hnone
        rw [hempty, hnone]
        rfl
      · rw [houter] at hfirst
        obtain ⟨_, others, rfl, hhead, htail⟩ := List.map_eq_cons_iff.mp hfirst
        cases hhead
        rw [hlist, ← htail, remaining_map_ok, List.flatMap_cons, rowsOf, List.append_assoc]

/-- A failure in the place of an outer row is one of the join. -/
theorem error_mem_remaining {outer : Row} {matched : Bool} {rest : List (Result Row)} {e : Error}
    (h : .error e ∈ rest) : .error e ∈ j.remaining inner outer matched rest := by
  induction rest generalizing outer matched with
  | nil => cases h
  | cons next rest ih =>
      cases next with
      | error other =>
          rw [remaining]
          rcases List.mem_cons.mp h with heq | h
          · exact List.mem_cons.mpr (.inl heq)
          · exact List.mem_cons_of_mem _ (ih h)
      | ok next =>
          rw [remaining]
          rcases List.mem_cons.mp h with heq | h
          · cases heq
          · exact List.mem_append_right _ (List.mem_append_right _ (ih h))

/-- Read to the end, a join succeeds iff the outer rows can be read and
no combination fails. It then gives the rows of each outer row in
order. -/
theorem collect_rows_eq_ok {outer : Rows} {read : List Row} :
    (do (← j.rows inner outer).collect) = .ok read ↔
      ∃ before, outer.collect = .ok before ∧
        (∀ left ∈ before, ∀ right ∈ inner, ∃ keep, j.passes (j.combine left right) = .ok keep) ∧
        read = before.flatMap (j.given inner) := by
  constructor
  · intro h
    obtain ⟨rows, hrows, hcollect⟩ := Result.bind_eq_ok.mp h
    rw [Rows.collect_eq_ok] at hcollect
    have hfine : ∀ e, .error e ∉ rows.toList := by simp [hcollect]
    have houter : ∀ e, .error e ∉ outer.toList := by
      intro e he
      rcases rows_eq_ok hrows with ⟨hnone, -⟩ | ⟨first, rest, hfirst, hlist⟩
      · rw [hnone] at he
        cases he
      · rw [hfirst] at he
        rcases List.mem_cons.mp he with heq | he
        · cases heq
        · apply hfine e
          rw [hlist]
          exact List.mem_append_right _ (error_mem_remaining he)
    obtain ⟨before, hbefore⟩ := Result.eq_map_ok houter
    obtain ⟨_, hsame, hlist⟩ : ∃ rows, j.rows inner outer = .ok rows ∧
        rows.toList = before.flatMap (j.rowsOf inner) := toList_rows hbefore
    cases hrows.symm.trans hsame
    have hdecided : ∀ left ∈ before, ∀ right ∈ inner,
        ∃ keep, j.passes (j.combine left right) = .ok keep := by
      intro left hleft right hright
      cases hpasses : j.passes (j.combine left right) with
      | ok keep => exact ⟨keep, rfl⟩
      | error e =>
          refine absurd ?_ (hfine e)
          rw [hlist]
          refine List.mem_flatMap.mpr ⟨left, hleft, List.mem_append_left _ ?_⟩
          exact List.mem_filterMap.mpr
            ⟨_, List.mem_map_of_mem hright, by simp [tried, hpasses]⟩
    refine ⟨before, Rows.collect_eq_ok.mpr hbefore, hdecided, ?_⟩
    apply Result.map_ok_injective
    rw [← hcollect, hlist, List.map_flatMap]
    exact List.flatMap_congr fun left hleft => rowsOf_eq_map_ok (hdecided left hleft)
  · rintro ⟨before, hbefore, hdecided, rfl⟩
    obtain ⟨rows, hrows, hlist⟩ : ∃ rows, j.rows inner outer = .ok rows ∧
        rows.toList = before.flatMap (j.rowsOf inner) :=
      toList_rows (Rows.collect_eq_ok.mp hbefore)
    rw [hrows, Result.ok_bind, Rows.collect_eq_ok, hlist, List.map_flatMap]
    exact List.flatMap_congr fun left hleft => rowsOf_eq_map_ok (hdecided left hleft)

-- ==================================================== where rows are from

/-- How a join comes by a row or a failure: a failure stood in the place
of an outer row; an outer row was tried with an inner one; or an outer
row was padded. -/
inductive Made (j : Joining) (inner : List Row) (outer : List (Result Row)) : Result Row → Prop
  | failed {e : Error} (mem : .error e ∈ outer) : Made j inner outer (.error e)
  | tried {left right : Row} {row : Result Row} (left_mem : .ok left ∈ outer)
      (right_mem : right ∈ inner) (trial : j.tried (j.combine left right) = some row) :
      Made j inner outer row
  | padded {left : Row} {width : Nat} (left_mem : .ok left ∈ outer)
      (padding : j.padding = some width) :
      Made j inner outer (.ok (j.combine left (List.replicate width .null)))

theorem Made.mono {before outer : List (Result Row)} {row : Result Row}
    (h : j.Made inner before row) (hsub : before ⊆ outer) : j.Made inner outer row := by
  cases h with
  | failed hmem => exact .failed (hsub hmem)
  | tried hleft hright htrial => exact .tried (hsub hleft) hright htrial
  | padded hleft hpadding => exact .padded (hsub hleft) hpadding

theorem made_of_mem_trials {outer : List (Result Row)} {left : Row} (hleft : .ok left ∈ outer)
    {row : Result Row} (h : row ∈ j.trials inner left) : j.Made inner outer row := by
  obtain ⟨combined, hcombined, htrial⟩ := List.mem_filterMap.mp h
  obtain ⟨right, hright, rfl⟩ := List.mem_map.mp hcombined
  exact .tried hleft hright htrial

theorem made_of_mem_padded {outer : List (Result Row)} {left : Row} {matched : Bool}
    (hleft : .ok left ∈ outer) {row : Result Row} (h : row ∈ j.padded left matched) :
    j.Made inner outer row := by
  unfold padded at h
  split at h
  · next width hpadding =>
      split at h
      · cases h
      · rw [List.mem_singleton.mp h]
        exact .padded hleft hpadding
  · cases h

theorem made_of_mem_remaining {rest : List (Result Row)} {left : Row} {matched : Bool}
    {row : Result Row} (h : row ∈ j.remaining inner left matched rest) :
    j.Made inner (.ok left :: rest) row := by
  induction rest generalizing left matched with
  | nil => exact made_of_mem_padded List.mem_cons_self h
  | cons next rest ih =>
      cases next with
      | error e =>
          rw [remaining] at h
          rcases List.mem_cons.mp h with rfl | h
          · exact .failed (List.mem_cons_of_mem _ List.mem_cons_self)
          · exact (ih h).mono (List.cons_subset_cons _ (List.subset_cons_self _ _))
      | ok next =>
          have hnext : (.ok next : Result Row) ∈ .ok left :: .ok next :: rest :=
            List.mem_cons_of_mem _ List.mem_cons_self
          rw [remaining] at h
          rcases List.mem_append.mp h with h | h
          · exact made_of_mem_padded List.mem_cons_self h
          · rcases List.mem_append.mp h with h | h
            · exact made_of_mem_trials hnext h
            · exact (ih h).mono (List.subset_cons_self _ _)

/-- What becomes of a combined row is the row or a failure to tell. -/
theorem eq_of_tried {row : Row} {result : Result Row} (h : j.tried row = some result) :
    result = .ok row ∨ ∃ e, j.passes row = .error e ∧ result = .error e := by
  unfold tried at h
  split at h
  · cases h
    exact .inl rfl
  · cases h
  · next e he =>
      cases h
      exact .inr ⟨e, he, rfl⟩

/-- Every row and every failure of a join is made in one of these
ways. -/
theorem made_of_mem {outer rows : Rows} (h : j.rows inner outer = .ok rows) {row : Result Row}
    (hrow : row ∈ rows.toList) : j.Made inner outer.toList row := by
  rcases rows_eq_ok h with ⟨-, hempty⟩ | ⟨first, rest, hfirst, hlist⟩
  · rw [hempty] at hrow
    cases hrow
  · rw [hlist] at hrow
    rw [hfirst]
    rcases List.mem_append.mp hrow with hrow | hrow
    · exact made_of_mem_trials List.mem_cons_self hrow
    · exact made_of_mem_remaining hrow

end Joining

end DialectDb
