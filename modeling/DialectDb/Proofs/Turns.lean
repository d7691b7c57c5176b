/-
Rows in the order of nested loops. A chain of joins is to give what one
loop inside of the other gives, in the order in which the loops come by
it, failures included (`nestedLoops`). What it does give differs in one
thing: a row without a match is padded, and before the padded row is
given out, the next row on the left is fetched. If there is a failure in
its place, then that comes first, and at every join further to the right
so does the failure before whatever the padded row would have made there.

So each row has its turn in the order of the loops, and is `clear` unless
it is such a padded row or made from one. Up to the first failure the
rows that are given are those that are clear (`Delivers`).
-/
import DialectDb.Proofs.JoinedRows

namespace DialectDb

-- ========================================================= nested loops

/-- A join whose names are resolved, with the rows on its right. -/
structure Level where
  joining : Joining
  inner : List Row

/-- What a row makes with the joins that are left: at each of them its
rows there, one by one, and with each of these the rest. -/
def nestedLoops : List Level → Row → List (Result Row)
  | [], row => [.ok row]
  | level :: levels, row =>
    (level.joining.rowsOf level.inner row).flatMap fun
      | .ok row => nestedLoops levels row
      | .error e => [.error e]

/-- The rows before the first failure. -/
def rowsBefore : List (Result Row) → List Row
  | .ok row :: rest => row :: rowsBefore rest
  | _ => []

/-- A row or a failure in its turn, and whether nothing has failed that
is fetched before it is given out. -/
structure Turn where
  row : Result Row
  clear : Bool

/-- What the rows that have their turn at a join make there. A padded row
is clear if the next row on the left is there, or no more are. -/
def Level.turns (level : Level) : List Turn → List Turn
  | [] => []
  | ⟨.error e, clear⟩ :: rest => ⟨.error e, clear⟩ :: level.turns rest
  | ⟨.ok outer, clear⟩ :: rest =>
    let fetched := rest.head?.all fun next => next.row.isOk && next.clear
    (level.joining.trials level.inner outer).map (⟨·, clear⟩) ++
      ((level.joining.padded outer (level.joining.hasMatch level.inner outer)).map
          (⟨·, clear && fetched⟩) ++
        level.turns rest)

namespace Turn

/-- A row that is given out in its turn. -/
def isGiven (turn : Turn) : Bool :=
  turn.row.isOk && turn.clear

/-- The rows that are given out before the first failure. -/
def given : List Turn → List Row
  | ⟨.ok row, true⟩ :: rest => row :: given rest
  | _ => []

/-- The first failure comes before every row that is left and is
clear. -/
inductive Blocked : List Turn → Prop
  | failure (e : Error) (clear : Bool) (rest : List Turn) : Blocked (⟨.error e, clear⟩ :: rest)
  | waiting (row : Row) {rest : List Turn} (h : Blocked rest) : Blocked (⟨.ok row, false⟩ :: rest)

/-- The rows that are given out are those that are clear, up to the first
failure. -/
inductive Delivers : List (Result Row) → List Turn → Prop
  | done : Delivers [] []
  | fails (e : Error) (rest : List (Result Row)) {turns : List Turn} (h : Blocked turns) :
      Delivers (.error e :: rest) turns
  | row (row : Row) {rest : List (Result Row)} {turns : List Turn} (h : Delivers rest turns) :
      Delivers (.ok row :: rest) (⟨.ok row, true⟩ :: turns)

variable {turns : List Turn} {rows : List (Result Row)}

-- ============================================================== blocked

theorem Blocked.head? (h : Blocked turns) : turns.head?.all isGiven = false := by
  cases h <;> rfl

/-- Rows that are not clear do not come before the failure. -/
theorem Blocked.behind (h : Blocked turns) (results : List (Result Row)) :
    Blocked (results.map (⟨·, false⟩) ++ turns) := by
  induction results with
  | nil => exact h
  | cons result results ih =>
      cases result with
      | error e => exact .failure e false _
      | ok row => exact .waiting row ih

theorem Blocked.join (h : Blocked turns) (level : Level) : Blocked (level.turns turns) := by
  induction h with
  | failure e clear rest => exact .failure e clear _
  | waiting row hrest ih =>
      rw [Level.turns, Bool.false_and]
      exact (ih.behind _).behind _

theorem Blocked.given_eq_nil (h : Blocked turns) : given turns = [] := by
  cases h <;> rfl

theorem Blocked.not_all (h : Blocked turns) : turns.all isGiven = false := by
  cases h <;> rfl

-- ============================================================ delivered

theorem delivers_start (rows : List Row) : Delivers (rows.map .ok) (rows.map (⟨.ok ·, true⟩)) := by
  induction rows with
  | nil => exact .done
  | cons row rows ih => exact .row row ih

/-- Results that are clear come before the rest. -/
theorem Delivers.behind (h : Delivers rows turns) (results : List (Result Row)) :
    Delivers (results ++ rows) (results.map (⟨·, true⟩) ++ turns) := by
  induction results with
  | nil => exact h
  | cons result results ih =>
      cases result with
      | error e => exact .fails e _ (.failure e true _)
      | ok row => exact .row row ih

/-- What a join has left to give once an outer row was tried. The padded
row, if there is one, is clear iff the next outer row is given. -/
theorem Delivers.remaining (h : Delivers rows turns) (level : Level) (outer : Row)
    (matched : Bool) :
    Delivers (level.joining.remaining level.inner outer matched rows)
      ((level.joining.padded outer matched).map (⟨·, turns.head?.all isGiven⟩) ++
        level.turns turns) := by
  induction h generalizing outer matched with
  | done =>
      have hpadded := Delivers.done.behind (level.joining.padded outer matched)
      rwa [List.append_nil] at hpadded
  | fails e rest hblocked =>
      rw [hblocked.head?]
      exact .fails e _ ((hblocked.join level).behind _)
  | row next hrest ih =>
      rw [Joining.remaining]
      refine Delivers.behind ?_ _
      rw [Level.turns, Bool.true_and]
      exact (ih next _).behind _

end Turn

-- ================================================================ joins

namespace Joining

/-- A join fails before its first row iff there is a failure in the place
of the first outer row. -/
theorem rows_eq_error {j : Joining} {inner : List Row} {outer : Rows} {e : Error}
    (h : j.rows inner outer = .error e) : ∃ rest, outer.toList = .error e :: rest := by
  induction outer with
  | done => cases h
  | wait rest ih => exact ih () h
  | next row rest =>
      cases row with
      | ok first => cases h
      | error fault =>
          cases h
          exact ⟨_, rfl⟩

end Joining

namespace Turn

variable {turns : List Turn}

/-- The rows of a computation are given out as turns say; one that fails
gives out none. -/
def Serves {α : Type} (rows : α → Rows) (r : Result α) (turns : List Turn) : Prop :=
  match r with
  | .ok a => Delivers (rows a).toList turns
  | .error _ => Blocked turns

theorem Delivers.join {outer : Rows} (h : Delivers outer.toList turns) (level : Level) :
    Serves id (level.joining.rows level.inner outer) (level.turns turns) := by
  unfold Serves
  split
  · next rows hrows =>
      rcases Joining.rows_eq_ok hrows with ⟨hnone, hempty⟩ | ⟨first, rest, hfirst, hlist⟩
      · rw [hnone] at h
        cases h
        show Delivers rows.toList []
        rw [hempty]
        exact .done
      · rw [hfirst] at h
        cases h with
        | row _ hrest =>
            show Delivers rows.toList _
            rw [hlist, Level.turns, Bool.true_and]
            exact (hrest.remaining level first _).behind _
  · next e hrows =>
      obtain ⟨rest, hfirst⟩ := Joining.rows_eq_error hrows
      rw [hfirst] at h
      cases h with
      | fails _ _ hblocked => exact hblocked.join level

-- ==================================================== rows as they pass

/-- What becomes of turns when each row is dropped or made another. -/
def through (f : Result Row → Option (Result Row)) (turns : List Turn) : List Turn :=
  turns.filterMap fun turn => (f turn.row).map (⟨·, turn.clear⟩)

variable {f : Result Row → Option (Result Row)}

theorem Blocked.through (h : Blocked turns) (hf : ∀ e, f (.error e) = some (.error e)) :
    Blocked (through f turns) := by
  induction h with
  | failure e clear rest =>
      simp only [Turn.through, List.filterMap_cons, hf, Option.map_some]
      exact .failure e clear _
  | waiting row hrest ih =>
      simp only [Turn.through, List.filterMap_cons]
      cases f (.ok row) with
      | none => exact ih
      | some result =>
          cases result with
          | error e => exact .failure e false _
          | ok row => exact .waiting row ih

/-- A failure stays, and a row is dropped, is made another or fails in
its own turn. -/
theorem Delivers.through {rows : List (Result Row)} (h : Delivers rows turns)
    (hf : ∀ e, f (.error e) = some (.error e)) :
    Delivers (rows.filterMap f) (through f turns) := by
  induction h with
  | done => exact .done
  | fails e rest hblocked =>
      rw [List.filterMap_cons, hf]
      exact .fails e _ (hblocked.through hf)
  | row row hrest ih =>
      simp only [Turn.through, List.filterMap_cons]
      cases f (.ok row) with
      | none => exact ih
      | some result => exact ih.behind [result]

-- ============================================================== reading

/-- What is delivered: the rows that are given out, and behind them
nothing if all turns are, or else a failure. -/
theorem Delivers.rows_eq {rows : List (Result Row)} (h : Delivers rows turns) :
    (rows = (given turns).map .ok ∧ turns.all isGiven = true) ∨
      ∃ e rest, rows = (given turns).map .ok ++ .error e :: rest ∧
        turns.all isGiven = false := by
  induction h with
  | done => exact .inl ⟨rfl, rfl⟩
  | fails e rest hblocked =>
      rw [hblocked.given_eq_nil]
      exact .inr ⟨e, rest, rfl, hblocked.not_all⟩
  | row row hrest ih =>
      rcases ih with ⟨hrows, hall⟩ | ⟨e, others, hrows, hall⟩
      · exact .inl ⟨congrArg (.ok row :: ·) hrows, hall⟩
      · exact .inr ⟨e, others, congrArg (.ok row :: ·) hrows, hall⟩

/-- The rows that are given out are the first of those before the first
failure. -/
theorem given_prefix (turns : List Turn) : given turns <+: rowsBefore (turns.map row) := by
  induction turns with
  | nil => exact List.prefix_rfl
  | cons turn turns ih =>
      rcases turn with ⟨e | row, clear⟩
      · exact List.prefix_rfl
      · cases clear with
        | false => exact List.nil_prefix
        | true => exact List.cons_prefix_cons.mpr ⟨rfl, ih⟩

/-- They are all of these iff all of these are clear. -/
theorem given_eq_iff (turns : List Turn) :
    given turns = rowsBefore (turns.map row) ↔
      ∀ turn ∈ turns.takeWhile (·.row.isOk), turn.clear = true := by
  induction turns with
  | nil => simp [given, rowsBefore]
  | cons turn turns ih =>
      rcases turn with ⟨e | row, clear⟩
      · simp [given, rowsBefore, Except.isOk, Except.toBool]
      · cases clear with
        | false => simp [given, rowsBefore, Except.isOk, Except.toBool]
        | true => simpa [given, rowsBefore, Except.isOk, Except.toBool] using ih

/-- Whatever waits does so for a failure. -/
theorem Blocked.exists_error (h : Blocked turns) : ∃ e, .error e ∈ turns.map row := by
  induction h with
  | failure e clear rest => exact ⟨e, List.mem_cons_self⟩
  | waiting row hrest ih =>
      obtain ⟨e, he⟩ := ih
      exact ⟨e, List.mem_cons_of_mem _ he⟩

/-- So all rows are given out iff there is no failure. -/
theorem Delivers.all_iff {rows : List (Result Row)} (h : Delivers rows turns) :
    turns.all isGiven = true ↔ ∀ e, .error e ∉ turns.map Turn.row := by
  induction h with
  | done => simp
  | fails e rest hblocked =>
      obtain ⟨fault, hfault⟩ := hblocked.exists_error
      rw [hblocked.not_all]
      exact ⟨nofun, fun hnone => absurd hfault (hnone fault)⟩
  | row row hrest ih => simpa [isGiven, Except.isOk, Except.toBool] using ih

end Turn

-- ======================================================== all the joins

/-- What a row or a failure makes with the joins that are left. -/
def loopsFrom (levels : List Level) : Result Row → List (Result Row)
  | .ok row => nestedLoops levels row
  | .error e => [.error e]

/-- Without a join to go, rows and failures stay. -/
theorem flatMap_loopsFrom_nil (results : List (Result Row)) :
    results.flatMap (loopsFrom []) = results := by
  have hself : loopsFrom [] = fun result => [result] := by
    funext result
    cases result <;> rfl
  rw [hself, List.flatMap_singleton']

theorem nestedLoops_cons (level : Level) (levels : List Level) (row : Row) :
    nestedLoops (level :: levels) row =
      (level.joining.rowsOf level.inner row).flatMap (loopsFrom levels) := by
  rw [nestedLoops]
  refine List.flatMap_congr fun result _ => ?_
  cases result <;> rfl

/-- The turns at all joins, one after the other. -/
def Level.allTurns (levels : List Level) (turns : List Turn) : List Turn :=
  levels.foldl (fun turns level => level.turns turns) turns

theorem Turn.rows_map (results : List (Result Row)) (clear : Bool) :
    (results.map (⟨·, clear⟩)).map Turn.row = results := by
  rw [List.map_map]
  exact List.map_id results

/-- At a join the turns are of the rows that each row makes there. -/
theorem Level.rows_turns (level : Level) (turns : List Turn) :
    (level.turns turns).map Turn.row = (turns.map Turn.row).flatMap (loopsFrom [level]) := by
  induction turns with
  | nil => rfl
  | cons turn turns ih =>
      rcases turn with ⟨e | row, clear⟩
      · exact congrArg (.error e :: ·) ih
      · rw [Level.turns, List.map_append, List.map_append, Turn.rows_map, Turn.rows_map, ih,
          List.map_cons, List.flatMap_cons, loopsFrom, nestedLoops_cons, flatMap_loopsFrom_nil,
          Joining.rowsOf, List.append_assoc]

/-- The turns come in the order of nested loops. -/
theorem Level.rows_allTurns (levels : List Level) (turns : List Turn) :
    (allTurns levels turns).map Turn.row = (turns.map Turn.row).flatMap (loopsFrom levels) := by
  induction levels generalizing turns with
  | nil => exact (flatMap_loopsFrom_nil _).symm
  | cons level levels ih =>
      show (allTurns levels (level.turns turns)).map Turn.row = _
      rw [ih, Level.rows_turns, List.flatMap_assoc]
      refine List.flatMap_congr fun result _ => ?_
      cases result with
      | error e => exact List.flatMap_singleton _ _
      | ok row => rw [loopsFrom, loopsFrom, nestedLoops_cons, nestedLoops_cons,
          flatMap_loopsFrom_nil]

theorem Turn.Blocked.allTurns {turns : List Turn} (h : Blocked turns) (levels : List Level) :
    Blocked (Level.allTurns levels turns) := by
  induction levels generalizing turns with
  | nil => exact h
  | cons level levels ih => exact ih (h.join level)

/-- Where the rows on the left are there at once, no row waits. -/
theorem Level.clear_of_start (level : Level) (start : List Row) :
    ∀ turn ∈ level.turns (start.map (⟨.ok ·, true⟩)), turn.clear = true := by
  induction start with
  | nil => exact fun _ hturn => absurd hturn List.not_mem_nil
  | cons row start ih =>
      have hfetched : ((start.map fun row => (⟨.ok row, true⟩ : Turn)).head?.all fun next =>
          next.row.isOk && next.clear) = true := by
        cases start <;> rfl
      intro turn hturn
      rw [List.map_cons, Level.turns, hfetched] at hturn
      rcases List.mem_append.mp hturn with hturn | hturn
      · obtain ⟨_, -, rfl⟩ := List.mem_map.mp hturn
        rfl
      · rcases List.mem_append.mp hturn with hturn | hturn
        · obtain ⟨_, -, rfl⟩ := List.mem_map.mp hturn
          rfl
        · exact ih turn hturn

/-- A join that does not pad makes no row wait. -/
theorem Level.clear_of_padding {level : Level} (hlevel : level.joining.padding = none)
    {turns : List Turn} (h : ∀ turn ∈ turns, turn.clear = true) :
    ∀ turn ∈ level.turns turns, turn.clear = true := by
  induction turns with
  | nil => exact fun _ hturn => absurd hturn List.not_mem_nil
  | cons turn turns ih =>
      obtain ⟨hturn, hturns⟩ := List.forall_mem_cons.mp h
      rcases turn with ⟨e | row, clear⟩
      · exact List.forall_mem_cons.mpr ⟨hturn, ih hturns⟩
      · intro turn hmem
        simp only [Level.turns, Joining.padded, hlevel, List.map_nil, List.nil_append] at hmem
        rcases List.mem_append.mp hmem with hmem | hmem
        · obtain ⟨_, -, rfl⟩ := List.mem_map.mp hmem
          exact hturn
        · exact ih hturns turn hmem

/-- So if none but the first join pads rows, no row waits. -/
theorem Level.allTurns_clear (first : Level) {levels : List Level}
    (h : ∀ level ∈ levels, level.joining.padding = none) (start : List Row) :
    ∀ turn ∈ allTurns (first :: levels) (start.map (⟨.ok ·, true⟩)), turn.clear = true := by
  have hrest (turns : List Turn) (hturns : ∀ turn ∈ turns, turn.clear = true) :
      ∀ turn ∈ allTurns levels turns, turn.clear = true := by
    induction levels generalizing turns with
    | nil => exact hturns
    | cons level levels ih =>
        obtain ⟨hlevel, hlevels⟩ := List.forall_mem_cons.mp h
        exact ih hlevels _ (clear_of_padding hlevel hturns)
  exact hrest _ (first.clear_of_start start)

end DialectDb
