/-
The rows of queries, with every look checked: conditions and select
lists on rows of their scope, joins, groups, and sorting. Each of these
is computed to its end, though a reader may stop before. So what is found
here is more than what is looked at when rows are read as they are
needed.
-/
import DialectDb.Proofs.Looks
import DialectDb.Proofs.PlacedRows

namespace DialectDb.Checked

-- ================================================= conditions and lists

/-- The rows that pass a condition of a scope. -/
def filter (s : Scope) (condition : Formula) : Rows → Checked Rows
  | .done => pure .done
  | .next (.error e) rest => do
    let after ← filter s condition (rest ())
    return .next (.error e) fun _ => after
  | .next (.ok row) rest => do
    let passed ← attempt (onRow s (Formula.holds (some condition)) row)
    let after ← filter s condition (rest ())
    match passed with
    | .ok true => return .next (.ok row) fun _ => after
    | .ok false => return .wait fun _ => after
    | .error e => return .next (.error e) fun _ => after
  | .wait rest => do
    let after ← filter s condition (rest ())
    return .wait fun _ => after

theorem finds_filter {s : Scope} {f : Formula} (hf : f.Within s.width) {rows : Rows}
    (h : rows.HaveWidth s.width) : (filter s f rows).Finds (.ok (rows.filter f)) := by
  induction rows with
  | done => exact .pure _
  | wait rest ih => exact (ih () h).bind_ok (.pure _)
  | next row rest ih =>
      have hrest := ih () fun other hother => h other (List.mem_cons_of_mem row hother)
      cases row with
      | error e => exact hrest.bind_ok (.pure _)
      | ok row =>
          have hholds := finds_holds hf (h row List.mem_cons_self)
          refine hholds.attempt.bind_ok (hrest.bind_ok ?_)
          rw [Rows.filter]
          rcases Formula.holds (some f) row with e | _ | _ <;> exact .pure _

/-- The values of formulas of a scope on each row. -/
def project (s : Scope) (formulas : List Formula) : Rows → Checked Rows
  | .done => pure .done
  | .next row rest => do
    let values ← attempt (of row >>= onRow s (Formula.evalList · formulas))
    let after ← project s formulas (rest ())
    return .next values fun _ => after
  | .wait rest => do
    let after ← project s formulas (rest ())
    return .wait fun _ => after

theorem finds_project {s : Scope} {fs : List Formula} (hfs : Formula.WithinList s.width fs)
    {rows : Rows} (hrows : rows.FailOnly Error.NoPlace) (h : rows.HaveWidth s.width) :
    (project s fs rows).Finds (.ok (rows.project fs)) := by
  induction rows with
  | done => exact .pure _
  | wait rest ih => exact (ih () hrows h).bind_ok (.pure _)
  | next row rest ih =>
      have hrest := ih () (fun e he => hrows e (List.mem_cons_of_mem row he))
        fun other hother => h other (List.mem_cons_of_mem row hother)
      have hrow := Rows.failOnly_iff.mp hrows row List.mem_cons_self
      have hvalues := (finds_of hrow).bind fun values hvalues =>
        finds_evalList hfs (h values (hvalues ▸ List.mem_cons_self))
      exact hvalues.attempt.bind_ok (hrest.bind_ok (.pure _))

-- ================================================================ joins

/-- The rows that an outer row makes with inner rows. A condition on
combined rows is one of the scope of the join. -/
def scan (s : Scope) (j : Joining) (outer : Row) (matched : Bool) :
    List Row → (Bool → Checked Rows) → Checked Rows
  | [], rest => do
    let after ← rest matched
    return .wait fun _ => after
  | inner :: inners, rest => do
    let row := j.combine outer inner
    match ← attempt (onRow s j.passes row) with
    | .ok true =>
      let after ← scan s j outer true inners rest
      return .next (.ok row) fun _ => after
    | .ok false =>
      let after ← scan s j outer matched inners rest
      return .wait fun _ => after
    | .error e =>
      let after ← scan s j outer matched inners rest
      return .next (.error e) fun _ => after

/-- The rows after all inner rows were tried with an outer row. -/
def proceed (s : Scope) (j : Joining) (inner : List Row) (outer : Row) (matched : Bool) :
    Rows → Checked Rows
  | .done => pure (j.pad outer matched fun _ => .done)
  | .wait rest => do
    let after ← proceed s j inner outer matched (rest ())
    return .wait fun _ => after
  | .next (.error e) rest => do
    let after ← proceed s j inner outer matched (rest ())
    return .next (.error e) fun _ => after
  | .next (.ok next) rest => do
    let after ← scan s j next false inner fun matched => proceed s j inner next matched (rest ())
    return j.pad outer matched fun _ => after

def joined (s : Scope) (j : Joining) (inner : List Row) : Rows → Checked Rows
  | .done => pure .done
  | .wait rest => joined s j inner (rest ())
  | .next (.error e) _ => of (.error e)
  | .next (.ok outer) rest =>
    scan s j outer false inner fun matched => proceed s j inner outer matched (rest ())

section Joins

variable {s : Scope} {j : Joining} {inner : List Row}

/-- The condition of a join can be told on every row that an outer row
makes. -/
def Combines (s : Scope) (j : Joining) (inner : List Row) (outer : Row) : Prop :=
  ∀ row ∈ inner, (onRow s j.passes (j.combine outer row)).Finds (j.passes (j.combine outer row))

theorem finds_scan {outer : Row} (h : Combines s j inner outer) {rest : Bool → Checked Rows}
    {after : Bool → Rows} (hrest : ∀ matched, (rest matched).Finds (.ok (after matched)))
    (matched : Bool) :
    (scan s j outer matched inner rest).Finds (.ok (j.scan outer matched inner after)) := by
  induction inner generalizing matched with
  | nil => exact (hrest matched).bind_ok (.pure _)
  | cons row inner ih =>
      obtain ⟨hrow, hinner⟩ := List.forall_mem_cons.mp h
      refine hrow.attempt.bind_ok ?_
      rw [Joining.scan]
      rcases j.passes (j.combine outer row) with e | _ | _
      all_goals exact (ih hinner _).bind_ok (.pure _)

theorem finds_proceed {rows : Rows}
    (h : ∀ outer, .ok outer ∈ rows.toList → Combines s j inner outer) (outer : Row)
    (matched : Bool) :
    (proceed s j inner outer matched rows).Finds (.ok (j.proceed inner outer matched rows)) := by
  induction rows generalizing outer matched with
  | done => exact .pure _
  | wait rest ih => exact (ih () h outer matched).bind_ok (.pure _)
  | next row rest ih =>
      have hrest := ih () fun other hother => h other (List.mem_cons_of_mem row hother)
      cases row with
      | error e => exact (hrest outer matched).bind_ok (.pure _)
      | ok next =>
          exact (finds_scan (h next List.mem_cons_self) (hrest next) false).bind_ok (.pure _)

theorem finds_joined {rows : Rows} (hrows : rows.FailOnly Error.NoPlace)
    (h : ∀ outer, .ok outer ∈ rows.toList → Combines s j inner outer) :
    (joined s j inner rows).Finds (j.rows inner rows) := by
  induction rows with
  | done => exact .pure _
  | wait rest ih => exact ih () hrows h
  | next row rest =>
      cases row with
      | error e => exact finds_of (P := fun _ => True) (.fail (hrows e List.mem_cons_self))
      | ok outer =>
          refine finds_scan (h outer List.mem_cons_self) (fun matched => ?_) false
          exact finds_proceed (fun other hother => h other (List.mem_cons_of_mem _ hother)) outer
            matched

end Joins

-- =============================================================== groups

/-- Takes in row after row. -/
def fold {α : Type} (step : α → Row → Checked α) (a : α) : Rows → Checked α
  | .done => pure a
  | .next (.error e) _ => of (.error e)
  | .next (.ok row) rest => do
    let a ← step a row
    fold step a (rest ())
  | .wait rest => fold step a (rest ())

/-- The checked steps of such a loop, with what they keep. -/
theorem finds_fold {α : Type} {I : α → Prop} {f : α → Row → Checked α} {g : α → Row → Result α}
    {rows : Rows} (hrows : rows.FailOnly Error.NoPlace)
    (h : ∀ row, .ok row ∈ rows.toList → ∀ a, I a →
      (f a row).Finds (g a row) ∧ ∀ after, g a row = .ok after → I after) {a : α} (ha : I a) :
    (fold f a rows).Finds (rows.fold g a) := by
  induction rows generalizing a with
  | done => exact .pure a
  | wait rest ih => exact ih () hrows h ha
  | next row rest ih =>
      cases row with
      | error e => exact finds_of (P := fun _ => True) (.fail (hrows e List.mem_cons_self))
      | ok row =>
          obtain ⟨hstep, hkeeps⟩ := h row List.mem_cons_self a ha
          have hplain : (Rows.next (.ok row) rest).fold g a =
              g a row >>= fun a => (rest ()).fold g a := by
            rw [Rows.fold]
            cases g a row <;> rfl
          rw [hplain]
          refine hstep.bind fun after hafter => ?_
          exact ih () (fun e he => hrows e (List.mem_cons_of_mem _ he))
            (fun other hother => h other (List.mem_cons_of_mem _ hother)) (hkeeps after hafter)

/-- Takes the values of a row into accumulators, one for each call. -/
def addValues (s : Scope) (row : Row) :
    List AggregateCall → List Accumulator → Checked (List Accumulator)
  | [], [] => pure []
  | call :: calls, a :: accumulators => do
    let value ← onRow s call.argument.eval row
    let a ← of (a.add value)
    return a :: (← addValues s row calls accumulators)
  | calls, accumulators => stop (.partner calls.length accumulators.length)

/-- Takes a row into its group. -/
def addRow (s : Scope) (g : Grouping) (groups : Groups) (row : Row) : Checked Groups := do
  let key ← onRow s (Formula.evalList · g.keys) row
  return groups.insert key (← addValues s row g.calls (groups.getD key g.initial))

/-- The rows of the groups of some rows. -/
def grouped (s : Scope) (g : Grouping) (input : Rows) : Checked Rows := do
  let groups ← fold (addRow s g) ∅ input
  if groups.isEmpty && g.keys.isEmpty then return .each (Grouping.groupRow []) [g.initial]
  else
    return .each (fun (key, accumulators) => Grouping.groupRow key accumulators) groups.toList

section Groups

variable {s : Scope} {g : Grouping}

theorem finds_addValues {row : Row} (hrow : row.length = s.width) {calls : List AggregateCall}
    (hcalls : ∀ call ∈ calls, call.argument.Within s.width) {accumulators : List Accumulator}
    (h : calls.length = accumulators.length) :
    (addValues s row calls accumulators).Finds (Grouping.addValues row calls accumulators) := by
  induction calls generalizing accumulators with
  | nil =>
      cases accumulators with
      | nil => exact .pure []
      | cons a accumulators => cases h
  | cons call calls ih =>
      obtain ⟨hcall, hrest⟩ := List.forall_mem_cons.mp hcalls
      cases accumulators with
      | nil => cases h
      | cons a accumulators =>
          have heval := (Formula.onValues_eval call.argument (hrow ▸ hcall)).placeSafe
          refine (finds_onRow hrow heval).bind fun value _ => ?_
          refine .of_bind (a.onValues_add value).placeSafe fun a' _ _ => ?_
          exact (ih hrest (Nat.succ.inj h)).bind fun _ _ => .pure _

theorem finds_addRow (hg : g.Within s.width) {read : List Row} {groups : Groups}
    (h : g.Hold read groups) {row : Row} (hrow : row.length = s.width) :
    (addRow s g groups row).Finds (g.addRow groups row) := by
  refine (finds_evalList hg.keys hrow).bind fun key _ => ?_
  have hlength := Grouping.length_aggregated (h.aggregated key)
  exact (finds_addValues hrow hg.calls hlength.symm).bind fun _ _ => .pure _

theorem finds_grouped (hg : g.Within s.width) {input : Rows}
    (hinput : input.FailOnly Error.NoPlace) (h : input.HaveWidth s.width) :
    (grouped s g input).Finds (g.rows input) := by
  have hgroups : (fold (addRow s g) ∅ input).Finds (input.fold g.addRow ∅) := by
    refine finds_fold (I := fun groups => ∃ read, g.Hold read groups) hinput ?_
      ⟨[], Grouping.hold_empty g⟩
    rintro row hrow groups ⟨read, hread⟩
    refine ⟨finds_addRow hg hread (h row hrow), fun after hafter => ?_⟩
    exact ⟨_, hread.addRow hafter⟩
  exact hgroups.bind fun groups _ => .ite (fun _ => .pure _) fun _ => .pure _

end Groups

-- ============================================================== sorting

/-- The order of two rows by their values at the sort keys. -/
def compareValues : List OrderKey → List Value → List Value → Ordering
  | k :: keys, a :: as, b :: bs =>
    let ordering := a.totalCompare b
    (match k.direction with
      | .ascending => ordering
      | .descending => ordering.swap).then (compareValues keys as bs)
  | _, _, _ => .eq

/-- Rows in the order of their values at the sort keys. -/
def sortRows (keys : List OrderKey) (rows : List Row) : Checked (List Row) := do
  let keyed ← rows.mapM fun row => do
    return (row, ← keys.mapM fun k => itemAt row k.index)
  return (keyed.mergeSort fun a b => compareValues keys a.2 b.2 != .gt).map Prod.fst

section Sorting

variable {keys : List OrderKey}

/-- The values of a row at sort keys, with NULL where there is none. -/
def sortValues (keys : List OrderKey) (row : Row) : List Value :=
  keys.map fun k => row[k.index]?.getD .null

theorem compareValues_sortValues (a b : Row) :
    compareValues keys (sortValues keys a) (sortValues keys b) = compareRows keys a b := by
  induction keys with
  | nil => rfl
  | cons k keys ih =>
      show Ordering.then _ (compareValues keys (sortValues keys a) (sortValues keys b)) = _
      rw [ih]
      rfl

theorem finds_sortRows {rows : List Row} (h : ∀ row ∈ rows, ∀ k ∈ keys, k.index < row.length) :
    (sortRows keys rows).Finds (.ok (DialectDb.sortRows keys rows)) := by
  have hvalues : ∀ row ∈ rows, (keys.mapM fun k => itemAt row k.index).Finds
      (.ok (sortValues keys row)) := fun row hrow =>
    .mapM_ok fun k hk => finds_itemAt (h row hrow k hk) .null
  have hkeyed := Finds.mapM_ok (f := fun row : Row => do
      return (row, ← keys.mapM fun k => itemAt row k.index)) fun row hrow =>
    (hvalues row hrow).bind_ok (.pure (row, sortValues keys row))
  refine hkeyed.bind_ok ?_
  -- sorting the rows with their values is sorting the rows
  have hsort := List.map_mergeSort (f := fun row => (row, sortValues keys row)) (l := rows)
    (r := fun a b => compareRows keys a b != .gt)
    (s := fun a b => compareValues keys a.2 b.2 != .gt)
    fun a _ b _ => by rw [compareValues_sortValues]
  rw [← hsort, List.map_map]
  have hid : (rows.mergeSort fun a b => compareRows keys a b != .gt).map
      (Prod.fst ∘ fun row => (row, sortValues keys row)) = DialectDb.sortRows keys rows :=
    List.map_id _
  rw [hid]
  exact .pure _

end Sorting

end DialectDb.Checked
