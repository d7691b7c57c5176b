/-
Upsert assignments as they are written, one behind the other, and what
they come to. A column that is assigned several times, in whatever letter
case, stays where it is assigned first and takes the value that it is
assigned last (`Settles`).
-/
import DialectDb.Grammar.Statement
import DialectDb.Proofs.Reading

namespace DialectDb

open DialectDb.Parser

-- ============================================================= settling

namespace Assignment

/-- The value that a column is assigned last, if it is assigned. -/
def lastValue? (column : String) (written : List Assignment) : Option Expr :=
  (written.reverse.find? fun a => Text.sameName column a.column).map (·.value)

/-- What assignments come to: each column once, where it is assigned
first, and with the value that it is assigned last. -/
structure Settles (written assigned : List Assignment) : Prop where
  columns : assigned.map (·.column) = (written.map (·.column)).eraseDupsBy Text.sameName
  values : ∀ a ∈ assigned, lastValue? a.column written = some a.value

/-- The assignments that are left once each has replaced those before it
to its column. -/
def settled (written : List Assignment) : List Assignment :=
  written.foldl (fun assigned a => Grammar.replaceAssignment a assigned) []

theorem lastValue?_cons (column : String) (a : Assignment) (written : List Assignment) :
    lastValue? column (a :: written) = (lastValue? column written).or
      (if Text.sameName column a.column then some a.value else none) := by
  unfold lastValue?
  rw [List.reverse_cons, List.find?_append, Option.map_or, List.find?_singleton]
  split <;> rfl

/-- Only the assignments to the column matter. -/
theorem lastValue?_filter {column : String} {p : Assignment → Bool} {written : List Assignment}
    (h : ∀ a ∈ written, Text.sameName column a.column = true → p a = true) :
    lastValue? column (written.filter p) = lastValue? column written := by
  induction written with
  | nil => rfl
  | cons a written ih =>
      obtain ⟨ha, hwritten⟩ := List.forall_mem_cons.mp h
      rw [List.filter_cons, lastValue?_cons, ← ih hwritten]
      split
      · exact lastValue?_cons column a _
      · next hother => rw [if_neg (fun hsame => hother (ha hsame)), Option.or_none]

theorem exists_of_lastValue? {column : String} {value : Expr} {written : List Assignment}
    (h : lastValue? column written = some value) :
    ∃ a ∈ written, Text.sameName column a.column = true := by
  obtain ⟨a, ha, -⟩ := Option.map_eq_some_iff.mp h
  obtain ⟨hsame, -⟩ := List.find?_eq_some_iff_append.mp ha
  exact ⟨a, List.mem_reverse.mp (List.mem_of_find?_eq_some ha), hsame⟩

/-- The column that is assigned first stays first. -/
theorem foldl_replaceAssignment (a : Assignment) (assigned written : List Assignment) :
    written.foldl (fun assigned a => Grammar.replaceAssignment a assigned) (a :: assigned) =
      ⟨a.column, (lastValue? a.column written).getD a.value⟩ ::
        (written.filter fun b => !Text.sameName a.column b.column).foldl
          (fun assigned a => Grammar.replaceAssignment a assigned) assigned := by
  induction written generalizing a assigned with
  | nil => rfl
  | cons b written ih =>
      have hfirst : Grammar.replaceAssignment b (a :: assigned) =
          if Text.sameName a.column b.column then ⟨a.column, b.value⟩ :: assigned
          else a :: Grammar.replaceAssignment b assigned := rfl
      rw [List.foldl_cons, hfirst, lastValue?_cons, List.filter_cons]
      cases Text.sameName a.column b.column with
      | true =>
          rw [if_pos rfl, if_pos rfl, ih]
          cases lastValue? a.column written <;> rfl
      | false =>
          rw [if_neg Bool.false_ne_true, if_neg Bool.false_ne_true, ih, Option.or_none]
          rfl

theorem settled_cons (a : Assignment) (written : List Assignment) :
    settled (a :: written) = ⟨a.column, (lastValue? a.column written).getD a.value⟩ ::
      settled (written.filter fun b => !Text.sameName a.column b.column) :=
  foldl_replaceAssignment a [] written

theorem settles_settled (written : List Assignment) : Settles written (settled written) := by
  match written with
  | [] => exact ⟨rfl, nofun⟩
  | a :: written =>
      have ih := settles_settled (written.filter fun b => !Text.sameName a.column b.column)
      rw [settled_cons]
      constructor
      · have hother : (fun b : Assignment => !Text.sameName a.column b.column) =
            (fun column => decide (Text.sameName column a.column = false)) ∘ (·.column) := by
          funext b
          have hsymm : Text.sameName a.column b.column = Text.sameName b.column a.column :=
            Bool.beq_comm
          rw [hsymm]
          cases hsame : Text.sameName b.column a.column <;> simp [hsame]
        rw [List.map_cons, List.map_cons, List.eraseDupsBy_cons, List.filter_map, ← hother,
          ih.columns]
      · refine List.forall_mem_cons.mpr ⟨?_, fun b hb => ?_⟩
        · rw [lastValue?_cons, if_pos (Text.sameName_iff.mpr rfl)]
          cases lastValue? a.column written <;> rfl
        · have hvalue := ih.values b hb
          obtain ⟨c, hc, hbc⟩ := exists_of_lastValue? hvalue
          have hac := (List.mem_filter.mp hc).2
          have hne : ∀ d : Assignment, Text.sameName b.column d.column = true →
              (!Text.sameName a.column d.column) = true := by
            intro d hd
            simp only [Text.sameName, Bool.not_eq_true', beq_eq_false_iff_ne, beq_iff_eq] at *
            rwa [← hd, hbc]
          rw [lastValue?_cons, if_neg, Option.or_none,
            ← lastValue?_filter fun d _ => hne d, hvalue]
          intro hba
          simpa [Text.sameName] using hne a hba
termination_by written.length
decreasing_by exact Nat.lt_succ_of_le (List.length_filter_le _ _)

end Assignment

-- ============================================================== reading

namespace Grammar

/-- What items are folded into can be told from the list of them. -/
theorem iterateWithin_foldl {α β : Type} (item : Parser α) (f : β → α → β) (b : β) (count : Nat)
    (items : List α) :
    iterateWithin (fun b => do
        if ← accept Sign.comma then do pure (some (f b (← item))) else pure none) count
        (items.foldl f b) =
      (List.foldl f b) <$> iterateWithin (fun items => do
        if ← accept Sign.comma then do pure (some (items ++ [← item])) else pure none) count
        items := by
  induction count generalizing items with
  | zero => exact (map_pure _ _).symm
  | succ count ih =>
      unfold iterateWithin
      simp only [bind_assoc, map_bind]
      congr 1
      funext taken
      cases taken with
      | false =>
          simp only [Bool.false_eq_true, if_false, pure_bind, map_pure]
      | true =>
          simp only [if_true, bind_assoc, pure_bind]
          congr 1
          funext a
          rw [← ih, List.foldl_concat]

theorem commaFold_eq_map {α β : Type} (item : Parser α) (f : β → α → β) (b : β) :
    commaFold (fun b => do pure (f b (← item))) b = (List.foldl f b) <$> commaList item := by
  unfold commaList commaFold iterate
  simp only [bind_assoc, pure_bind, map_bind, map_pure, List.nil_append]
  congr 1
  funext a
  congr 1
  funext c
  exact iterateWithin_foldl item f b _ [a]

/-- Reads upsert assignments as they are written. -/
def writtenAssignments (g : Grammar) : Parser (List Assignment) :=
  withReader ({ · with upsert := true }) <| commaList do
    let column ← identifier
    expect Sign.equal
    pure ⟨column, ← g.expression 0⟩

theorem upsertAssignments_eq (g : Grammar) :
    upsertAssignments g = Assignment.settled <$> writtenAssignments g := by
  have hfold := commaFold_eq_map (α := Assignment) (do
    let column ← identifier
    expect Sign.equal
    pure ⟨column, ← g.expression 0⟩) (fun assigned a => replaceAssignment a assigned) []
  simp only [bind_assoc, pure_bind] at hfold
  unfold upsertAssignments writtenAssignments
  rw [hfold]
  rfl

end Grammar

end DialectDb
