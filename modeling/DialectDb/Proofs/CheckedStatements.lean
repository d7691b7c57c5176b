/-
MERGE and whole statements with every look checked. On a valid store a
statement finds all that it looks at, so it is the checked one: it
evaluates formulas only on rows as wide as their scope, and indexes rows,
labels, marks and sort keys only where there is something.
-/
import DialectDb.Proofs.CheckedWrites

namespace DialectDb

open DialectDb.Action CheckedAction

variable {store : Store} {version : DialectVersion} {t : Table}

namespace Checked

-- =============================================================== MERGE

open Merge (Clause ClauseAction Fate Progress Target writtenPlaces)

/-- The first clause whose condition a row passes. -/
def firstApplicable (s : Scope) (input : Row) : List Clause → Checked (Option ClauseAction)
  | [] => pure none
  | c :: rest => do
    if ← onRow s (Formula.holds c.condition) input then return some c.action
    else firstApplicable s input rest

def fateOf (s : Scope) (t : Table) (target input : Row) : Option ClauseAction → Checked Fate
  | none => pure .kept
  | some (.update assignments) => do
    let row ← applyAll s input assignments target
    return .updated (← of (t.normalizeRow row))
  | some .delete => pure .deleted
  | some (.insert _ _) => throw (.invalid .insertForMatched)

/-- Matches a source row with the target rows. The scope is one of a
target row and then a source row. -/
def matchTargets (s : Scope) (t : Table) (predicate : Formula) (clauses : List Clause)
    (source : Row) : List Target → Checked (Bool × List Target)
  | [] => pure (false, [])
  | target :: rest => do
    let input := target.row ++ source
    if ← onRow s (Formula.holds (some predicate)) input then
      match target.fate with
      | .unmatched =>
        let fate ← fateOf s t target.row input (← firstApplicable s input clauses)
        let (_, rest) ← matchTargets s t predicate clauses source rest
        return (true, ⟨target.row, fate⟩ :: rest)
      | _ => throw (.invalid .mergeMatchedTwice)
    else
      let (found, rest) ← matchTargets s t predicate clauses source rest
      return (found, target :: rest)

/-- The row that a source row without a match inserts, with NULLs in the
place of a target row. -/
def insertion (s : Scope) (t : Table) (clauses : List Clause) (source : Row) :
    Checked (Option Row) := do
  let input := List.replicate t.columns.length .null ++ source
  match ← firstApplicable s input clauses with
  | none => return none
  | some (.insert places values) =>
    let values ← onRow s (Formula.evalList · values) input
    return some (← buildRow t places values)
  | some _ => throw (.invalid .insertOnlyForUnmatched)

def takeSource (s : Scope) (t : Table) (predicate : Formula) (clauses : List Clause)
    (p : Progress) (source : Row) : Checked Progress := do
  let (found, targets) ←
    matchTargets s t predicate (clauses.filter (·.matched)) source p.targets
  if found then return { p with targets }
  else
    let new ← insertion s t (clauses.filter (!·.matched)) source
    return ⟨targets, p.inserted ++ new.toList⟩

def takeSources (s : Scope) (t : Table) (predicate : Formula) (clauses : List Clause)
    (p : Progress) (source : List Row) : Checked Progress :=
  source.foldlM (takeSource s t predicate clauses) p

def mergeRows (s : Scope) (t : Table) (predicate : Formula) (clauses : List Clause)
    (source : List Row) : CheckedAction (Array Row) Nat := do
  let start : Progress := { targets := (← get).toList.map fun row => ⟨row, .unmatched⟩ }
  let p ← takeSources s t predicate clauses start source
  let final := (p.rows.map (·.row)).toArray
  checkPlaces t final (writtenPlaces p.rows)
  set final
  return p.count

/-- The rows to merge, and their columns. -/
def sourceRows (version : DialectVersion) (store : Store) :
    MergeSource → Checked (Scope × List Row)
  | .table table => do
    let relation ← of (({ store } : Context).relation table.name)
    return (Scope.ofColumns table.label relation.columns, relation.rows)
  | .query q aliasName => do
    let answer ← evaluate version store q
    return (Scope.ofColumns aliasName answer.columns, ← of answer.rows.collect)

def merge (m : Merge) (version : DialectVersion) : CheckedAction Store Effect := do
  let store ← get
  let (sourceScope, source) ← sourceRows version store m.source
  let table := (← of (store.get m.target.name)).table
  let scope ← of ((Scope.ofColumns m.target.label table.columnNames).merge sourceScope)
  let predicate ← of (scope.resolve m.predicate)
  let clauses ← of (Merge.resolveClauses table scope m.clauses)
  let count ← mutate m.target.name fun table => mergeRows scope table predicate clauses source
  return .merged count

section Merging

variable {s : Scope} {predicate : Formula} {clauses : List Clause} {source : Row}

theorem finds_firstApplicable {input : Row} (hinput : input.length = s.width)
    (h : ∀ c ∈ clauses, c.Within t s.width) :
    (firstApplicable s input clauses).Finds (Merge.firstApplicable input clauses) := by
  induction clauses with
  | nil => exact .pure none
  | cons c rest ih =>
      obtain ⟨hc, hrest⟩ := List.forall_mem_cons.mp h
      have hholds := Formula.onValues_holds (hinput ▸ hc.condition)
      refine (finds_onRow hinput hholds.placeSafe).bind fun holds _ => ?_
      exact .ite (fun _ => .pure _) fun _ => ih hrest

theorem finds_fateOf {target input : Row} (hinput : input.length = s.width)
    (htarget : t.Holds target) {action : Option ClauseAction}
    (h : ∀ a ∈ action, a.Within t s.width) :
    (fateOf s t target input action).Finds (Merge.fateOf t target input action) := by
  match action with
  | none => exact .pure Fate.kept
  | some .delete => exact .pure Fate.deleted
  | some (.insert _ _) => exact .throw _
  | some (.update assignments) =>
      have hwithin : ∀ a ∈ assignments, a.Within t s.width := h _ rfl
      have happlied := finds_applyAll hinput hwithin htarget.length_eq.symm
      refine happlied.bind fun row hrow => ?_
      exact (finds_normalizeRow htarget hrow).map _

theorem finds_matchTargets (hs : s.width = t.columns.length + source.length)
    (hpredicate : predicate.Within s.width) (hclauses : ∀ c ∈ clauses, c.Within t s.width)
    {targets : List Target} (h : ∀ target ∈ targets, t.Holds target.row) :
    (matchTargets s t predicate clauses source targets).Finds
      (Merge.matchTargets t predicate clauses source targets) := by
  induction targets with
  | nil => exact .pure _
  | cons target rest ih =>
      obtain ⟨htarget, hrest⟩ := List.forall_mem_cons.mp h
      obtain ⟨row, fate⟩ := target
      have hinput : (row ++ source).length = s.width := by
        rw [List.length_append, ← htarget.length_eq, hs]
      refine (finds_holds hpredicate hinput).bind fun holds _ => ?_
      refine .ite (fun _ => ?_) fun _ => (ih hrest).bind fun _ _ => .pure _
      cases fate with
      | unmatched =>
          have hyields := Merge.firstApplicable_yields (hinput ▸ hclauses)
          have hfirst := finds_firstApplicable hinput hclauses
          refine hfirst.bind_yields hyields fun action _ hwithin => ?_
          refine (finds_fateOf hinput htarget (hinput ▸ hwithin)).bind fun _ _ => ?_
          exact (ih hrest).bind fun _ _ => .pure _
      | kept => exact .throw _
      | updated => exact .throw _
      | deleted => exact .throw _

theorem finds_insertion (hs : s.width = t.columns.length + source.length)
    (hclauses : ∀ c ∈ clauses, c.Within t s.width) :
    (insertion s t clauses source).Finds (Merge.insertion t clauses source) := by
  have hinput : (List.replicate t.columns.length .null ++ source : Row).length = s.width := by
    rw [List.length_append, List.length_replicate, hs]
  have hyields := Merge.firstApplicable_yields (hinput ▸ hclauses)
  have hfirst := finds_firstApplicable hinput hclauses
  refine hfirst.bind_yields hyields fun action _ hwithin => ?_
  rw [hinput] at hwithin
  match action with
  | none => exact .pure none
  | some (.insert places values) =>
      obtain ⟨hplaces, hvalues⟩ := hwithin _ rfl
      refine (finds_evalList hvalues hinput).bind fun values _ => ?_
      exact (finds_buildRow hplaces values).map _
  | some (.update _) => exact .throw _
  | some .delete => exact .throw _

theorem finds_takeSource (hs : s.width = t.columns.length + source.length)
    (hpredicate : predicate.Within s.width) (hclauses : ∀ c ∈ clauses, c.Within t s.width)
    {p : Progress} (h : ∀ target ∈ p.targets, t.Holds target.row) :
    (takeSource s t predicate clauses p source).Finds
      (Merge.takeSource t predicate clauses p source) := by
  have hsome : ∀ keep : Clause → Bool, ∀ c ∈ clauses.filter keep, c.Within t s.width :=
    fun keep c hc => hclauses c (List.mem_of_mem_filter hc)
  refine (finds_matchTargets hs hpredicate (hsome _) h).bind fun matched _ => ?_
  refine .ite (fun _ => .pure _) fun _ => ?_
  exact (finds_insertion hs (hsome _)).bind fun _ _ => .pure _

theorem finds_takeSources {source : List Row} {before : List Row}
    (hbefore : ∀ row ∈ before, t.Holds row)
    (hs : ∀ row ∈ source, s.width = t.columns.length + row.length)
    (hpredicate : predicate.Within s.width) (hclauses : ∀ c ∈ clauses, c.Within t s.width)
    {p : Progress} (hp : p.Sound t before) :
    (takeSources s t predicate clauses p source).Finds
      (Merge.takeSources t predicate clauses p source) := by
  refine .foldlM (I := Progress.Sound t before) (fun row hrow p hp => ⟨?_, fun _ hafter => ?_⟩) hp
  · exact finds_takeSource (hs row hrow) hpredicate hclauses fun target htarget =>
      hbefore _ (hp.rows ▸ List.mem_map_of_mem htarget)
  · exact Merge.takeSource_sound hp hafter

theorem findsAt_mergeRows {source : List Row}
    (hs : ∀ row ∈ source, s.width = t.columns.length + row.length)
    (hpredicate : predicate.Within s.width) (hclauses : ∀ c ∈ clauses, c.Within t s.width)
    {rows : Array Row} (h : ∀ row ∈ rows.toList, t.Holds row) :
    FindsAt (mergeRows s t predicate clauses source) (Merge.mergeRows t predicate clauses source)
      rows := by
  have hstart := Merge.sound_start t rows.toList
  refine .get_bind (.lift_bind (finds_takeSources h hs hpredicate hclauses hstart) fun p hp => ?_)
  have hfinal : ∀ row ∈ (p.rows.map (·.row)).toArray.toList, t.Holds row := by
    intro row hrow
    obtain ⟨r, hr, rfl⟩ := List.mem_map.mp hrow
    exact (Merge.takeSources_sound hstart hp).rows_hold h r hr
  have hplaces : ∀ index ∈ writtenPlaces p.rows, index < (p.rows.map (·.row)).toArray.size := by
    intro index hindex
    obtain ⟨r, hr, -⟩ := Merge.mem_writtenPlaces.mp hindex
    rw [List.size_toArray, List.length_map]
    exact (List.getElem?_eq_some_iff.mp hr).1
  refine .lift_bind (finds_checkPlaces hfinal hplaces) fun _ _ => ?_
  exact .bind (.set _) fun _ _ _ => .pure _

theorem finds_sourceRows (hstore : store.Valid) (source : MergeSource) :
    (sourceRows version store source).Finds (Merge.sourceRows version store source) := by
  cases source with
  | table table =>
      have hrelated := hstore.context.regular.relation_yields table.name
      exact .of_bind hrelated fun _ _ _ => .pure _
  | query q aliasName =>
      have hyields := q.evaluate_yields version hstore
      refine (finds_evaluate hstore q).bind_yields hyields fun answer _ hsound => ?_
      exact .of_bind hsound.collect fun _ _ _ => .pure _

theorem findsAt_merge (m : Merge) (hstore : store.Valid) :
    FindsAt (merge m version) (m.execute version) store := by
  refine .get_bind (.lift_bind (finds_sourceRows hstore m.source) fun taken hsource => ?_)
  obtain ⟨sourceScope, source⟩ := taken
  refine .of_bind (Store.placeSafe_get _) fun stored hget _ => ?_
  refine .of_bind (Merge.scope_yields _ _ sourceScope) fun scope hscope ⟨hsound, _⟩ => ?_
  refine .of_bind (Scope.resolve_yields _ hsound) fun predicate hpredicate _ => ?_
  refine .of_bind (Merge.resolveClauses_yields _ hsound _) fun clauses hclauses _ => ?_
  have hprepared : m.Prepared version store stored scope source predicate clauses :=
    ⟨hget, ⟨sourceScope, hsource, hscope⟩, hpredicate, hclauses⟩
  obtain ⟨hvalid, hwithin, hwithins, width, hwidth, hrows⟩ := hprepared.fits hstore
  refine .bind (findsAt_mutate hget ?_) fun _ _ _ => .pure _
  refine findsAt_mergeRows (fun row hrow => ?_) hwithin hwithins hvalid.holds
  rw [hwidth, hrows row hrow]

end Merging

-- ======================================================== CREATE TABLE

def column (d : ColumnDefinition) : Checked Column := do
  let nullable := d.nullable.getD !d.primaryKey
  let default ←
    match d.default with
    | some e => do pure (some (← of ((← evalConstant e).coerce d.type)))
    | none => pure (if nullable then some .null else none)
  return { name := d.name, type := d.type, primaryKey := d.primaryKey, nullable, default,
           unique := d.unique }

def table (name : String) (columns : List ColumnDefinition) : Checked Table := do
  return ⟨name, ← columns.mapM column⟩

theorem finds_column (d : ColumnDefinition) : (column d).Finds d.column := by
  unfold column ColumnDefinition.column
  cases d.default with
  | none => exact .pure _
  | some e =>
      refine (finds_evalConstant e).bind fun value _ => ?_
      exact .of_bind (Value.onRow_coerce _ _).onValues.placeSafe fun _ _ _ => .pure _

theorem finds_table (name : String) (columns : List ColumnDefinition) :
    (table name columns).Finds (ColumnDefinition.table name columns) :=
  (Finds.mapM fun d _ => finds_column d).bind fun _ _ => .pure _

-- ========================================================== statements

def execute (version : DialectVersion) : Statement → CheckedAction Store Outcome
  | .createTable name columns => do
    CheckedAction.of (Store.createTable (← table name columns))
    return .effect (.createdTable name)
  | .dropTable name ifExists => do
    let existed ← CheckedAction.of (Store.dropTable name ifExists)
    return .effect (.droppedTable name existed)
  | .select q => do return .answer (← evaluate version (← get) q)
  | .insert i => .effect <$> insert i version
  | .update u => .effect <$> update u
  | .delete d => .effect <$> deleteWhere d
  | .merge m => .effect <$> merge m version

/-- On a valid store a statement finds all that it looks at. -/
theorem findsAt_execute (s : Statement) (h : store.Valid) :
    FindsAt (execute version s) (s.execute version) store := by
  cases s with
  | createTable name columns =>
      refine .lift_bind (finds_table name columns) fun t _ => ?_
      exact .bind (.of (Store.failsOnly_createTable t)) fun _ _ _ => .pure _
  | dropTable name ifExists =>
      exact .bind (.of (Store.failsOnly_dropTable name ifExists)) fun _ _ _ => .pure _
  | select q => exact .get_bind (.lift_bind (finds_evaluate h q) fun _ _ => .pure _)
  | insert i => exact .map _ (findsAt_insert i h)
  | update u => exact .map _ (findsAt_update u h)
  | delete d => exact .map _ (findsAt_deleteWhere d h)
  | merge m => exact .map _ (findsAt_merge m h)

end Checked

namespace Statement

/-- Only queries give an answer. -/
theorem evaluate_of_answer {s : Statement} {answer : Answer} {after : Store}
    (h : (s.execute version).perform store = (.ok (.answer answer), after)) :
    ∃ q, Select.evaluate version store q = .ok answer := by
  have hmap {x : Action Store Effect}
      (hx : (Outcome.effect <$> x).perform store = (.ok (.answer answer), after)) : False := by
    rw [perform_map] at hx
    obtain ⟨_, -, heffect⟩ := Result.map_eq_ok.mp (congrArg Prod.fst hx)
    cases heffect
  cases s with
  | createTable name columns =>
      obtain ⟨t, -, h⟩ := perform_lift_bind_eq_ok.mp h
      obtain ⟨_, _, -, h⟩ := perform_bind_eq_ok.mp h
      cases h
  | dropTable name ifExists =>
      obtain ⟨_, _, -, h⟩ := perform_bind_eq_ok.mp h
      cases h
  | select q =>
      unfold execute at h
      rw [perform_get_bind] at h
      obtain ⟨_, hevaluate, h⟩ := perform_lift_bind_eq_ok.mp h
      cases h
      exact ⟨q, hevaluate⟩
  | insert i => exact absurd h hmap
  | update u => exact absurd h hmap
  | delete d => exact absurd h hmap
  | merge m => exact absurd h hmap

/-- Rows have the layout that they are looked at with. On a valid store
every statement is the checked one, which stops where a formula would be
evaluated on a row of another width than that of its scope, or where
there is nothing at an index of a row, of labels, of marks or of sort
keys. So no statement fails for a column out of bounds, nor does any row
of an answer, and every row of an answer has a value for each of its
columns. -/
theorem layout_safe (version : DialectVersion) {store : Store} (h : store.Valid) (s : Statement) :
    (Checked.execute version s).perform store = .ok ((s.execute version).perform store) ∧
    (∀ index, ((s.execute version).perform store).1 ≠
      .error (.invalid (.columnOutOfBounds index))) ∧
    ∀ answer after, (s.execute version).perform store = (.ok (.answer answer), after) →
      (∀ index, .error (.invalid (.columnOutOfBounds index)) ∉ answer.rows.toList) ∧
      ∀ row, .ok row ∈ answer.rows.toList → row.length = answer.columns.length := by
  refine ⟨Checked.findsAt_execute s h, fun index hfailed => ?_, fun answer after hanswer => ?_⟩
  · exact (s.failsOnly_execute h).of_error _ hfailed
  · obtain ⟨q, hevaluate⟩ := evaluate_of_answer hanswer
    refine ⟨fun index hfailed => ?_, Select.evaluate_regular hevaluate⟩
    exact (q.evaluate_yields version h).of_ok answer hevaluate _ hfailed

end Statement

namespace Where

/-- `INSERT INTO Pages VALUES (1, 3) ON CONFLICT (id) DO UPDATE SET
link = Pages.link + excluded.link` -/
def relink : Insert where
  table := "Pages"
  columns := none
  rows := [[.literal (.integer 1), .literal (.integer 3)]]
  query := none
  conflictTarget := ["id"]
  assignments :=
    [⟨"link", .binary .add (.column (some "Pages") "link") (.excluded "link")⟩]

/-- `SELECT a.id, b.id FROM Pages a LEFT JOIN Pages b ON a.link = b.id` -/
def links : Select :=
  { Select.allWhere "Pages" none with
    columns := [⟨.column (some "a") "id", none⟩, ⟨.column (some "b") "id", none⟩]
    source := some ⟨"Pages", some "a", []⟩
    joins := [⟨.left, ⟨"Pages", some "b", []⟩,
      some (.binary .equal (.column (some "a") "link") (.column (some "b") "id"))⟩] }

/-- The new link is computed from the row in the way and the proposed row
behind it, in a scope of four columns. The query pads the last page, which
has no link. With a row that is too short, the INSERT stops. -/
theorem relink_layout_safe :
    (Checked.execute ⟨.sqLite, 3⟩ (.insert relink)).perform ⟨[⟨"pages", pages⟩]⟩ =
      .ok (.ok (.effect (.inserted 1)), ⟨[⟨"pages", { pages with
        rows := [[.integer 1, .integer 5], [.integer 2, .integer 1], [.integer 3, .null]] }⟩]⟩) ∧
    (∃ answer,
      (Checked.execute ⟨.sqLite, 3⟩ (.select links)).perform ⟨[⟨"pages", pages⟩]⟩ =
        .ok (.ok (.answer answer), ⟨[⟨"pages", pages⟩]⟩) ∧
      answer.rows.collect =
        .ok [[.integer 1, .integer 2], [.integer 2, .integer 1], [.integer 3, .null]] ∧
      ∀ row, .ok row ∈ answer.rows.toList → row.length = answer.columns.length) ∧
    (Checked.execute ⟨.sqLite, 3⟩ (.insert relink)).perform
      ⟨[⟨"pages", { pages with rows := [[.integer 1]] }⟩]⟩ = .error (.width 4 3) := by
  refine ⟨?_, ?_, rfl⟩
  · have hplain : (relink.execute ⟨.sqLite, 3⟩).perform ⟨[⟨"pages", pages⟩]⟩ =
        (.ok (.inserted 1), ⟨[⟨"pages", { pages with rows :=
          [[.integer 1, .integer 5], [.integer 2, .integer 1], [.integer 3, .null]] }⟩]⟩) := by
      decide +kernel
    refine (Statement.layout_safe ⟨.sqLite, 3⟩ pages_valid (.insert relink)).1.trans ?_
    unfold Statement.execute
    rw [perform_map, hplain]
    rfl
  · have hread : (links.evaluate ⟨.sqLite, 3⟩ ⟨[⟨"pages", pages⟩]⟩ >>= (·.rows.collect)) =
        .ok [[.integer 1, .integer 2], [.integer 2, .integer 1], [.integer 3, .null]] := by
      decide +kernel
    obtain ⟨answer, hevaluate, hread⟩ := Result.bind_eq_ok.mp hread
    obtain ⟨hchecked, -, hanswer⟩ :=
      Statement.layout_safe ⟨.sqLite, 3⟩ pages_valid (.select links)
    have hperform : ((Statement.select links).execute ⟨.sqLite, 3⟩).perform
        ⟨[⟨"pages", pages⟩]⟩ = (.ok (.answer answer), ⟨[⟨"pages", pages⟩]⟩) := by
      unfold Statement.execute
      rw [perform_get_bind, perform_lift_bind, hevaluate]
      rfl
    rw [hperform] at hchecked
    exact ⟨answer, hchecked, hread, (hanswer answer _ hperform).2⟩

end Where

end DialectDb
