/-
Names in upsert assignments. The scope of these has the columns of the
table twice, those of the row in the way under the table's name and those
of the proposed row under the name `excluded`. So a column without a
table is one of two, and never resolves. This asks what becomes of a
statement whose assignments name the table's columns with the table, once
the table is left out: it fails, unless there is no such name.
-/
import DialectDb.Proofs.GroupedValues
import DialectDb.Proofs.Insertion
import DialectDb.Proofs.ScopedRows

namespace DialectDb

open DialectDb.Action

variable {α β : Type}

/-- Of computations that touch no state, one after the other is one. -/
theorem Action.lift_bind {σ : Type} (r : Result α) (f : α → Result β) :
    (liftM (r >>= f) : Action σ β) = liftM r >>= fun a => liftM (f a) := by
  cases r <;> rfl

-- =============================================================== names

namespace Expr

mutual

/-- An expression that names the columns of a table without the table.
Subqueries are left as they are. -/
def unqualified (table : String) : Expr → Expr
  | .column (some own) name =>
    if Text.sameName table own then .column none name else .column (some own) name
  | .call f arguments => .call f (unqualifiedList table arguments)
  | .unary op e => .unary op (e.unqualified table)
  | .binary op l r => .binary op (l.unqualified table) (r.unqualified table)
  | .inList e items => .inList (e.unqualified table) (unqualifiedList table items)
  | .inQuery e q => .inQuery (e.unqualified table) q
  | e => e
termination_by structural e => e

def unqualifiedList (table : String) : List Expr → List Expr
  | [] => []
  | e :: es => e.unqualified table :: unqualifiedList table es
termination_by structural es => es

end

mutual

/-- The columns that an expression names with a table, outside of
subqueries. -/
def qualified (table : String) : Expr → List String
  | .column (some own) name => if Text.sameName table own then [name] else []
  | .call _ arguments => qualifiedList table arguments
  | .unary _ e => e.qualified table
  | .binary _ l r => l.qualified table ++ r.qualified table
  | .inList e items => e.qualified table ++ qualifiedList table items
  | .inQuery e _ => e.qualified table
  | _ => []
termination_by structural e => e

def qualifiedList (table : String) : List Expr → List String
  | [] => []
  | e :: es => e.qualified table ++ qualifiedList table es
termination_by structural es => es

end

theorem length_unqualifiedList (table : String) (es : List Expr) :
    (unqualifiedList table es).length = es.length := by
  induction es with
  | nil => rfl
  | cons e es ih => rw [unqualifiedList, List.length_cons, ih, List.length_cons]

end Expr

/-- An assignment with such a value. -/
def Assignment.unqualified (table : String) (a : Assignment) : Assignment :=
  { a with value := a.value.unqualified table }

namespace Insert

/-- INSERT with such assignments. -/
def unqualified (table : String) (i : Insert) : Insert :=
  { i with assignments := i.assignments.map (·.unqualified table) }

/-- The columns that the assignments of INSERT name with a table. -/
def qualified (table : String) (i : Insert) : List String :=
  i.assignments.flatMap (·.value.qualified table)

end Insert

-- ============================================================= spoiling

namespace Result

/-- A result where no name is ambiguous, and else the failure for the
first. -/
def ambiguousAt (names : List String) (a : α) : Result α :=
  match names with
  | [] => .ok a
  | name :: _ => .error (.schema (.ambiguousColumn name))

/-- A computation that differs from another in that some names are
ambiguous. It fails for the first of them, if there is one, where the
other succeeds, and fails where the other does. -/
def SpoiledBy (names : List String) (x y : Result α) : Prop :=
  match x with
  | .ok a => y = ambiguousAt names a
  | .error _ => ∃ e, y = .error e

variable {names others : List String} {x y : Result α}

theorem SpoiledBy.refl (x : Result α) : SpoiledBy [] x x := by
  cases x with
  | error e => exact ⟨e, rfl⟩
  | ok a => rfl

theorem SpoiledBy.bind {f g : α → Result β} (h : SpoiledBy names x y)
    (hrest : ∀ a, x = .ok a → SpoiledBy others (f a) (g a)) :
    SpoiledBy (names ++ others) (x >>= f) (y >>= g) := by
  cases x with
  | error e =>
      obtain ⟨e', rfl⟩ := h
      exact ⟨e', rfl⟩
  | ok a =>
      cases h
      cases names with
      | nil => exact hrest a rfl
      | cons name names =>
          -- the names before the rest have made it fail
          rw [ok_bind]
          cases f a with
          | error e => exact ⟨_, rfl⟩
          | ok b => rfl

theorem SpoiledBy.map (g : α → β) (h : SpoiledBy names x y) :
    SpoiledBy names (g <$> x) (g <$> y) := by
  cases x with
  | error e =>
      obtain ⟨e', rfl⟩ := h
      exact ⟨e', rfl⟩
  | ok a =>
      cases h
      cases names <;> rfl

/-- Computations on the items of a list are spoiled by the names of all
items, in their order. -/
theorem SpoiledBy.mapM {f : α → Result β} {change : α → α} {names : α → List String}
    {items : List α} (h : ∀ a ∈ items, SpoiledBy (names a) (f a) (f (change a))) :
    SpoiledBy (items.flatMap names) (items.mapM f) ((items.map change).mapM f) := by
  induction items with
  | nil => exact .refl _
  | cons a rest ih =>
      obtain ⟨hfirst, hrest⟩ := List.forall_mem_cons.mp h
      rw [List.flatMap_cons, List.map_cons, List.mapM_cons, List.mapM_cons]
      refine hfirst.bind fun b _ => ?_
      rw [bind_pure_comp, bind_pure_comp]
      exact (ih hrest).map _

end Result

-- ====================================================== the upsert scope

namespace Label

/-- A label that is named with a table is also named without. -/
theorem isNamed_none {label : Label} {table : Option String} {name : String}
    (h : label.isNamed table name = true) : label.isNamed .none name = true := by
  cases label with
  | none => cases h
  | unqualified own => exact (Bool.and_eq_true_iff.mp h).2
  | qualified own ownName => exact (Bool.and_eq_true_iff.mp h).2

end Label

namespace Insert

variable {t : Table} {s : Scope}

theorem conflictScope_labels (h : conflictScope t = .ok s) :
    s.labels = t.columnNames.map (.qualified t.name) ++
      t.columnNames.map (.qualified excludedTable) :=
  Scope.merge_labels h

theorem conflictScope_plain (h : conflictScope t = .ok s) : s.layout.slots = [] ∧ s.outer = [] := by
  unfold conflictScope Scope.merge at h
  split at h
  · cases h
  · cases h
    exact ⟨rfl, rfl⟩

/-- The columns of the row in the way come first. -/
theorem getElem?_conflictScope (h : conflictScope t = .ok s) {k : Nat} {column : String}
    (hk : t.columnNames[k]? = some column) :
    s.layout.labels[k]? = some (.qualified t.name column) := by
  have hlt := (List.getElem?_eq_some_iff.mp hk).1
  rw [show s.layout.labels = _ from conflictScope_labels h,
    List.getElem?_append_left (by rwa [List.length_map]), List.getElem?_map, hk]
  rfl

/-- Whatever has a name in the scope is a column of the table. -/
theorem column_of_conflictScope (h : conflictScope t = .ok s) {label : Label}
    (hlabel : label ∈ s.layout.labels) {name : String} (hnamed : label.isNamed none name = true) :
    ∃ (k : Nat) (column : String), t.columnNames[k]? = some column ∧
      Text.sameName column name = true := by
  rw [show s.layout.labels = _ from conflictScope_labels h, List.mem_append, List.mem_map,
    List.mem_map] at hlabel
  obtain ⟨column, hcolumn, rfl⟩ | ⟨column, hcolumn, rfl⟩ := hlabel
  all_goals
    obtain ⟨k, hk⟩ := List.mem_iff_getElem?.mp hcolumn
    exact ⟨k, column, hk, hnamed⟩

/-- Each column is there twice. So a column without a table is ambiguous
if it is there at all. -/
theorem find?_conflictScope (h : conflictScope t = .ok s) {label : Label}
    (hlabel : label ∈ s.layout.labels) {name : String} (hnamed : label.isNamed none name = true) :
    s.layout.find? none name = .error (.schema (.ambiguousColumn name)) := by
  obtain ⟨k, column, hk, hsame⟩ := column_of_conflictScope h hlabel hnamed
  have hproposed : s.layout.labels[t.columnNames.length + k]? =
      some (.qualified excludedTable column) := by
    have hlength : (t.columnNames.map (Label.qualified t.name)).length = t.columnNames.length :=
      List.length_map _
    rw [show s.layout.labels = _ from conflictScope_labels h,
      List.getElem?_append_right (by omega), hlength, Nat.add_sub_cancel_left,
      List.getElem?_map, hk]
    rfl
  cases hfind : s.layout.find? none name with
  | error e =>
      unfold Layout.find? at hfind
      split at hfind
      · cases hfind
      · cases hfind
      · exact hfind.symm
  | ok place =>
      cases place with
      | none =>
          have hunnamed := Layout.find?_eq_none_iff.mp hfind label hlabel
          rw [hnamed] at hunnamed
          cases hunnamed
      | some index =>
          obtain ⟨-, -, -, honly⟩ := Layout.find?_eq_some hfind
          have hfirst := honly k _ (getElem?_conflictScope h hk) hsame
          have hsecond := honly _ _ hproposed hsame
          have hlt := (List.getElem?_eq_some_iff.mp hk).1
          omega

/-- A column that is named with the table is the table's, and has the value
of the row in the way. -/
theorem eval_qualified (h : conflictScope t = .ok s) {own : String}
    (hown : Text.sameName t.name own = true) {name : String} {f : Formula}
    (hresolve : s.resolveColumn (some own) name = .ok f) {existing : Row}
    (hwidth : existing.length = t.columns.length) :
    ∃ index, t.columnIndex name = .ok index ∧ index < existing.length ∧
      ∀ proposed, f.eval (existing ++ proposed) = .ok (existing[index]?.getD .null) := by
  obtain ⟨index, hfind, rfl⟩ := Scope.find?_of_resolveColumn (conflictScope_plain h).2 hresolve
  obtain ⟨label, hlabel, hnamed, honly⟩ := Layout.find?_eq_some hfind
  -- a column of the table answers to the reference on the table's side
  have hside {k : Nat} {column : String} (hk : t.columnNames[k]? = some column)
      (hsame : Text.sameName column name = true) : k = index :=
    honly k _ (getElem?_conflictScope h hk) (Bool.and_eq_true_iff.mpr ⟨hown, hsame⟩)
  obtain ⟨k, column, hk, hsame⟩ :=
    column_of_conflictScope h (List.mem_of_getElem? hlabel) (Label.isNamed_none hnamed)
  obtain rfl := hside hk hsame
  have hcolumn : k < t.columns.length := by
    have hlt := (List.getElem?_eq_some_iff.mp hk).1
    rwa [Table.columnNames, List.length_map] at hlt
  have hlt : k < existing.length := hwidth ▸ hcolumn
  refine ⟨k, ?_, hlt, fun proposed => ?_⟩
  · have hname (i : Nat) (hi : i < t.columns.length) :
        t.columnNames[i]? = some t.columns[i].name := by
      rw [Table.columnNames, List.getElem?_map, List.getElem?_eq_getElem hi]
      rfl
    have hplace : t.columns.findIdx? (Text.sameName ·.name name) = some k := by
      refine List.findIdx?_eq_some_iff_getElem.mpr ⟨hcolumn, ?_, fun j hj hbefore => ?_⟩
      · rwa [Option.some.inj ((hname k hcolumn).symm.trans hk)]
      · exact absurd (hside (hname j (hj.trans hcolumn)) hbefore) hj.ne
    rw [Table.columnIndex, hplace]
  · rw [Formula.eval, List.getElem?_append_left hlt, List.getElem?_eq_getElem hlt]
    rfl

/-- A column without a table does not resolve. -/
theorem resolveColumn_unqualified (h : conflictScope t = .ok s) (name : String) :
    ∃ e, s.resolveColumn none name = .error e := by
  cases hresolve : s.resolveColumn none name with
  | error e => exact ⟨e, rfl⟩
  | ok f =>
      obtain ⟨index, hfind, -⟩ := Scope.find?_of_resolveColumn (conflictScope_plain h).2 hresolve
      obtain ⟨label, hlabel, hnamed, -⟩ := Layout.find?_eq_some hfind
      rw [find?_conflictScope h (List.mem_of_getElem? hlabel) hnamed] at hfind
      cases hfind

/-- If it does with a table, it is ambiguous without. -/
theorem resolveColumn_ambiguous (h : conflictScope t = .ok s) {table : Option String}
    {name : String} {f : Formula} (hresolve : s.resolveColumn table name = .ok f) :
    s.resolveColumn none name = .error (.schema (.ambiguousColumn name)) := by
  obtain ⟨index, hfind, -⟩ := Scope.find?_of_resolveColumn (conflictScope_plain h).2 hresolve
  obtain ⟨label, hlabel, hnamed, -⟩ := Layout.find?_eq_some hfind
  have hambiguous := find?_conflictScope h (List.mem_of_getElem? hlabel) (Label.isNamed_none hnamed)
  rw [Scope.resolveColumn, hambiguous]
  rfl

-- =========================================================== resolution

mutual

/-- An expression without the table resolves like the one with it, but for
the columns that are named with it. -/
theorem resolve_unqualified (h : conflictScope t = .ok s) (table : String) : ∀ e : Expr,
    Result.SpoiledBy (e.qualified table) (s.resolve e) (s.resolve (e.unqualified table))
  | .all | .literal _ | .parameter _ | .excluded _ | .exists _ | .column none _ => .refl _
  | .column (some own) name => by
    have hslot := Layout.slot?_eq_none (conflictScope_plain h).1
    simp only [Expr.unqualified, Expr.qualified]
    split
    · simp only [Scope.resolve, hslot]
      cases hresolve : s.resolveColumn (some own) name with
      | error e => exact resolveColumn_unqualified h name
      | ok f => exact resolveColumn_ambiguous h hresolve
    · exact .refl _
  | .inQuery e q => by
    have hslot := Layout.slot?_eq_none (conflictScope_plain h).1
    simp only [Expr.unqualified, Scope.resolve, hslot]
    exact ⟨_, rfl⟩
  | .call name arguments => by
    have hslot := Layout.slot?_eq_none (conflictScope_plain h).1
    have hlist := resolveList_unqualified h table arguments
    simp only [Expr.unqualified, Scope.resolve, hslot, Expr.length_unqualifiedList]
    split
    · exact ⟨_, rfl⟩
    · have hfunction := Result.SpoiledBy.refl (Function.lookup name arguments.length)
      exact hfunction.bind fun function _ => hlist.map (Formula.call function)
  | .unary op e => by
    have hslot := Layout.slot?_eq_none (conflictScope_plain h).1
    have hoperand := resolve_unqualified h table e
    simp only [Expr.unqualified, Scope.resolve, hslot]
    exact hoperand.map (Formula.unary op)
  | .binary op l r => by
    have hslot := Layout.slot?_eq_none (conflictScope_plain h).1
    have hleft := resolve_unqualified h table l
    have hright := resolve_unqualified h table r
    simp only [Expr.unqualified, Expr.qualified, Scope.resolve, hslot]
    refine hleft.bind fun left _ => ?_
    have hformula (right : Formula) := Result.SpoiledBy.refl (Scope.binaryFormula op left right)
    have hboth := hright.bind fun right _ => hformula right
    rwa [List.append_nil] at hboth
  | .inList e items => by
    have hslot := Layout.slot?_eq_none (conflictScope_plain h).1
    have hoperand := resolve_unqualified h table e
    have hitems := resolveList_unqualified h table items
    simp only [Expr.unqualified, Expr.qualified, Scope.resolve, hslot]
    exact hoperand.bind fun operand _ => hitems.map (Formula.inList operand)
termination_by structural e => e

theorem resolveList_unqualified (h : conflictScope t = .ok s) (table : String) :
    ∀ es : List Expr, Result.SpoiledBy (Expr.qualifiedList table es) (s.resolveList es)
      (s.resolveList (Expr.unqualifiedList table es))
  | [] => .refl _
  | e :: es => by
    have hhead := resolve_unqualified h table e
    have htail := resolveList_unqualified h table es
    exact hhead.bind fun f _ => htail.map (f :: ·)
termination_by structural es => es

end

/-- So does what is to happen to rows that conflict. -/
theorem resolution_unqualified (i : Insert) (t : Table) (table : String) :
    Result.SpoiledBy (i.qualified table) (i.resolution t) ((i.unqualified table).resolution t) := by
  unfold resolution
  refine (Result.SpoiledBy.refl (i.conflictKeys t)).bind fun keys _ => ?_
  refine (Result.SpoiledBy.refl (conflictScope t)).bind fun s hscope => ?_
  have hassignments : Result.SpoiledBy (i.qualified table)
      (Assignment.resolveList t s i.assignments)
      (Assignment.resolveList t s (i.unqualified table).assignments) := by
    refine Result.SpoiledBy.mapM fun a _ => ?_
    refine (Result.SpoiledBy.refl (t.columnIndex a.column)).bind fun index _ => ?_
    exact (resolve_unqualified hscope table a.value).map (PlaceAssignment.mk index)
  exact hassignments.map (Resolution.mk keys · i.ignoreConflicts)

-- ============================================================ statements

/-- The rows to be inserted and what is to happen to those that conflict,
before the first row is written. -/
def prepared (i : Insert) (version : DialectVersion) (store : Store) :
    Result (List Row × Resolution) := do
  let table := (← store.get i.table).table
  let places ← table.valuePlaces i.columns
  let rows ← i.buildRows table places (← i.values version store)
  return (rows, ← i.resolution table)

theorem prepared_unqualified (i : Insert) (version : DialectVersion) (store : Store)
    (table : String) :
    Result.SpoiledBy (i.qualified table) (i.prepared version store)
      ((i.unqualified table).prepared version store) := by
  refine (Result.SpoiledBy.refl (store.get i.table)).bind fun stored _ => ?_
  refine (Result.SpoiledBy.refl (stored.table.valuePlaces i.columns)).bind fun places _ => ?_
  refine (Result.SpoiledBy.refl (i.values version store)).bind fun values _ => ?_
  refine (Result.SpoiledBy.refl (i.buildRows stored.table places values)).bind fun rows _ => ?_
  exact (resolution_unqualified i stored.table table).map (Prod.mk rows)

/-- What was prepared is written. -/
theorem perform_execute (i : Insert) (version : DialectVersion) (store : Store) :
    (i.execute version).perform store =
      (do
        let (rows, resolution) ← i.prepared version store
        let count ← Store.mutate i.table fun table => writeRows table resolution rows
        return .inserted count : Action Store Effect).perform store := by
  have hpure (p : List Row × Resolution) :
      (liftM (pure p : Result (List Row × Resolution)) : Action Store _) = pure p := rfl
  unfold execute prepared
  rw [perform_get_bind]
  simp only [lift_bind, hpure, bind_assoc, pure_bind]

/-- INSERT leaves the store as it was where it fails. -/
theorem execute_error {i : Insert} {version : DialectVersion} {store after : Store} {e : Error}
    (h : (i.execute version).perform store = (.error e, after)) : after = store := by
  rw [perform_execute, perform_lift_bind] at h
  cases hprepared : i.prepared version store with
  | error e' =>
      rw [hprepared] at h
      cases h
      rfl
  | ok p =>
      obtain ⟨stored, hget, -⟩ := Result.bind_eq_ok.mp hprepared
      rw [hprepared] at h
      dsimp only at h
      rw [perform_bind, Store.perform_mutate _ hget] at h
      rcases hwrite : (writeRows stored.table p.2 p.1).perform stored.rows.toArray with
        ⟨_ | count, rows⟩
      · rw [hwrite] at h
        cases h
        rfl
      · rw [hwrite] at h
        cases h

/-- Where INSERT succeeds, it does without the table as well if no column
is named with it, and else the first of these is ambiguous. -/
theorem execute_unqualified {i : Insert} {version : DialectVersion} {store after : Store}
    {effect : Effect} (h : (i.execute version).perform store = (.ok effect, after))
    (table : String) :
    ((i.unqualified table).execute version).perform store =
      match i.qualified table with
      | [] => (.ok effect, after)
      | name :: _ => (.error (.schema (.ambiguousColumn name)), store) := by
  have hspoiled := prepared_unqualified i version store table
  rw [perform_execute, perform_lift_bind] at h ⊢
  cases hprepared : i.prepared version store with
  | error e =>
      rw [hprepared] at h
      cases h
  | ok p =>
      rw [hprepared] at h hspoiled
      rw [show (i.unqualified table).prepared version store = _ from hspoiled]
      cases i.qualified table with
      | nil => exact h
      | cons name rest => rfl

/-- Where it fails, it fails without the table. -/
theorem execute_unqualified_error {i : Insert} {version : DialectVersion} {store after : Store}
    {e : Error} (h : (i.execute version).perform store = (.error e, after)) (table : String) :
    ∃ e', ((i.unqualified table).execute version).perform store = (.error e', store) := by
  have hspoiled := prepared_unqualified i version store table
  have hafter := execute_error h
  rw [perform_execute, perform_lift_bind] at h ⊢
  cases hprepared : i.prepared version store with
  | error e =>
      rw [hprepared] at hspoiled
      obtain ⟨e', he'⟩ := hspoiled
      exact ⟨e', by rw [he']⟩
  | ok p =>
      rw [hprepared] at h hspoiled
      rw [show (i.unqualified table).prepared version store = _ from hspoiled]
      cases i.qualified table with
      | nil => exact ⟨e, hafter ▸ h⟩
      | cons name rest => exact ⟨_, rfl⟩

end Insert

/-- Leaving the table out of the names of its columns in upsert
assignments. A statement that fails still fails, and changes nothing. One
that succeeds does the same as before if no column was named with the
table, and else fails for the first that was, which is now ambiguous, and
changes nothing. -/
theorem Statement.upsert_unqualified (i : Insert) (version : DialectVersion) (store : Store)
    (table : String) :
    let run := ((insert i).execute version).perform store
    let bare := ((insert (i.unqualified table)).execute version).perform store
    (∀ outcome after, run = (.ok outcome, after) →
        bare = match i.qualified table with
          | [] => (.ok outcome, after)
          | name :: _ => (.error (.schema (.ambiguousColumn name)), store)) ∧
      ∀ e after, run = (.error e, after) → ∃ e', bare = (.error e', store) := by
  intro run bare
  have hrun : run = _ := perform_map Outcome.effect (i.execute version) store
  have hbare : bare = _ := perform_map Outcome.effect ((i.unqualified table).execute version) store
  clear_value run bare
  subst hrun hbare
  rcases hinsert : (i.execute version).perform store with ⟨e | effect, after⟩
  · obtain ⟨e', he'⟩ := Insert.execute_unqualified_error hinsert table
    rw [he']
    refine ⟨fun outcome after' h => ?_, fun _ _ _ => ⟨e', rfl⟩⟩
    cases congrArg Prod.fst h
  · rw [Insert.execute_unqualified hinsert table]
    refine ⟨fun outcome after' h => ?_, fun e after' h => ?_⟩
    · cases h
      cases i.qualified table <;> rfl
    · cases congrArg Prod.fst h

namespace UpsertNames

/-- `CREATE TABLE counters (id INT PRIMARY KEY, n INT)` -/
def counters : Table :=
  ⟨"counters", [⟨"id", .integer, true, false, none, false⟩,
    ⟨"n", .integer, false, true, some .null, false⟩]⟩

/-- One counter that has a value. -/
def counting (value : Int64) : Store :=
  ⟨[⟨"counters", counters, [[.integer 1, .integer value]]⟩]⟩

/-- `INSERT INTO counters VALUES (1, 10) ON DUPLICATE KEY UPDATE n = value` -/
def counted (value : Expr) : Insert where
  table := "counters"
  columns := none
  rows := [[.literal (.integer 1), .literal (.integer 10)]]
  query := none
  assignments := [⟨"n", value⟩]

/-- `counters.n + 1` -/
def next : Expr := .binary .add (.column (some "counters") "n") (.literal (.integer 1))

/-- The proposed row's value is taken in both. -/
theorem counted_proposed :
    ∃ outcome : Outcome, outcome.count = 1 ∧
      ((Statement.insert (counted (.excluded "n"))).execute ⟨.mySql, 8⟩).perform (counting 5) =
        (.ok outcome, counting 10) ∧
      ((Statement.insert ((counted (.excluded "n")).unqualified "counters")).execute
          ⟨.mySql, 8⟩).perform (counting 5) = (.ok outcome, counting 10) := by
  have hcount : Outcome.count <$> (((Statement.insert (counted (.excluded "n"))).execute
      ⟨.mySql, 8⟩).perform (counting 5)).1 = .ok 1 := by
    decide +kernel
  have hafter : (((Statement.insert (counted (.excluded "n"))).execute ⟨.mySql, 8⟩).perform
      (counting 5)).2 = counting 10 := by
    decide +kernel
  obtain ⟨outcome, houtcome, hone⟩ := Result.map_eq_ok.mp hcount
  have hrun : ((Statement.insert (counted (.excluded "n"))).execute ⟨.mySql, 8⟩).perform
      (counting 5) = (.ok outcome, counting 10) := Prod.ext houtcome hafter
  exact ⟨outcome, hone, hrun, (Statement.upsert_unqualified _ _ _ "counters").1 _ _ hrun⟩

/-- The counter goes up by one only if its name has the table. -/
theorem counted_next :
    (counted next).unqualified "counters" =
        counted (.binary .add (.column none "n") (.literal (.integer 1))) ∧
      (((Statement.insert (counted next)).execute ⟨.mySql, 8⟩).perform (counting 5)).2 =
        counting 6 ∧
      ((Statement.insert ((counted next).unqualified "counters")).execute ⟨.mySql, 8⟩).perform
          (counting 5) = (.error (.schema (.ambiguousColumn "n")), counting 5) :=
  ⟨by rfl, by decide +kernel, by rfl⟩

end UpsertNames

end DialectDb
