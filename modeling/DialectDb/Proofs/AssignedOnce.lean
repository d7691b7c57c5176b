/-
Columns that are assigned once. A SET list is kept in the order of the
column names, and reading it fails for a name that is there already. That
asks for exactly the same name, whereas a table looks for its columns by
name in whatever letter case. So the list that is made has each name
once, and assigns each place of a row once iff no two names differ in
letter case only.
-/
import DialectDb.Execution
import DialectDb.Proofs.MadeStatements
import DialectDb.Proofs.WholeTexts

namespace DialectDb

open DialectDb.Parser

-- ================================================================ lists

namespace Assignment

/-- Assignments in the order of the column names, each name once. -/
def Sorted (set : List Assignment) : Prop :=
  set.Pairwise (·.column < ·.column)

/-- The names that are assigned. -/
def names (set : List Assignment) : List String :=
  set.map (·.column)

/-- The names that are assigned, regardless of letter case. -/
def keys (set : List Assignment) : List (List Char) :=
  set.map (Text.nameKey ·.column)

theorem sorted_iff {set : List Assignment} : Sorted set ↔ (names set).Pairwise (· < ·) :=
  List.pairwise_map.symm

theorem Sorted.nodup {set : List Assignment} (h : Sorted set) : (names set).Nodup := by
  refine List.pairwise_map.mpr (h.imp fun {a b} hlt heq => ?_)
  exact String.lt_irrefl _ (heq ▸ hlt)

end Assignment

namespace Grammar

open DialectDb.Assignment (Sorted names)

variable {new : Assignment} {set inserted : List Assignment}

theorem mem_names_of_insertAssignment (h : insertAssignment? new set = none) :
    new.column ∈ names set := by
  induction set with
  | nil => cases h
  | cons a set ih =>
      unfold insertAssignment? at h
      split at h
      · next heq =>
          rw [heq]
          exact List.mem_cons_self
      split at h
      · cases h
      · exact List.mem_cons_of_mem _ (ih (Option.map_eq_none_iff.mp h))

/-- An assignment that is put into a list in order is there with the
others, in order, and was not there before. -/
theorem insertAssignment_sorted (hsorted : Sorted set)
    (h : insertAssignment? new set = some inserted) :
    inserted.Perm (new :: set) ∧ Sorted inserted := by
  induction set generalizing inserted with
  | nil =>
      cases h
      exact ⟨.refl _, List.pairwise_singleton _ _⟩
  | cons a set ih =>
      obtain ⟨hfirst, hrest⟩ := List.pairwise_cons.mp hsorted
      unfold insertAssignment? at h
      split at h
      · cases h
      next hne =>
        split at h
        · next hlt =>
            cases h
            refine ⟨.refl _, List.pairwise_cons.mpr ⟨fun b hb => ?_, hsorted⟩⟩
            rcases List.mem_cons.mp hb with rfl | hb
            · exact hlt
            · exact String.lt_trans hlt (hfirst b hb)
        · next hge =>
            obtain ⟨rest, hinsert, rfl⟩ := Option.map_eq_some_iff.mp h
            obtain ⟨hperm, hsorted'⟩ := ih hrest hinsert
            have hafter : a.column < new.column := by
              by_contra hnot
              exact hne (String.le_antisymm (String.not_lt.mp hnot) (String.not_lt.mp hge))
            refine ⟨(hperm.cons a).trans (.swap new a set), ?_⟩
            refine List.pairwise_cons.mpr ⟨fun b hb => ?_, hsorted'⟩
            rcases List.mem_cons.mp (hperm.mem_iff.mp hb) with rfl | hb
            · exact hafter
            · exact hfirst b hb

/-- Puts assignments into a list one by one; none if a name is assigned
already. -/
def assignAll (set written : List Assignment) : Option (List Assignment) :=
  written.foldlM (fun set a => insertAssignment? a set) set

theorem assignAll_cons (set : List Assignment) (a : Assignment) (written : List Assignment) :
    assignAll set (a :: written) = insertAssignment? a set >>= (assignAll · written) := by
  rw [assignAll, List.foldlM_cons]
  rfl

/-- Where that can be done, no name is assigned twice. -/
theorem assignAll_eq_some (hsorted : Sorted set) {written all : List Assignment}
    (h : assignAll set written = some all) :
    (names (set ++ written)).Nodup ∧ all.Perm (set ++ written) ∧ Sorted all := by
  induction written generalizing set with
  | nil =>
      cases h
      rw [List.append_nil]
      exact ⟨hsorted.nodup, .refl _, hsorted⟩
  | cons a written ih =>
      rw [assignAll_cons] at h
      obtain ⟨inserted, hinsert, hrest⟩ := Option.bind_eq_some_iff.mp h
      obtain ⟨hperm, hsorted'⟩ := insertAssignment_sorted hsorted hinsert
      have hmoved : (inserted ++ written).Perm (set ++ a :: written) :=
        (hperm.append_right written).trans List.perm_middle.symm
      obtain ⟨hnodup, hall, hsortedAll⟩ := ih hsorted' hrest
      exact ⟨(hmoved.map _).nodup_iff.mp hnodup, hall.trans hmoved, hsortedAll⟩

/-- Where it cannot, a name is. -/
theorem assignAll_eq_none (hsorted : Sorted set) {written : List Assignment}
    (h : assignAll set written = none) : ¬(names (set ++ written)).Nodup := by
  induction written generalizing set with
  | nil => cases h
  | cons a written ih =>
      rw [assignAll_cons] at h
      cases hinsert : insertAssignment? a set with
      | none =>
          have hmem := mem_names_of_insertAssignment hinsert
          rw [names, List.map_append, List.nodup_append]
          exact fun hnodup => hnodup.2.2 _ hmem _ (List.mem_map_of_mem List.mem_cons_self) rfl
      | some inserted =>
          rw [hinsert] at h
          obtain ⟨hperm, hsorted'⟩ := insertAssignment_sorted hsorted hinsert
          have hmoved : (inserted ++ written).Perm (set ++ a :: written) :=
            (hperm.append_right written).trans List.perm_middle.symm
          exact fun hnodup => ih hsorted' h ((hmoved.map _).nodup_iff.mpr hnodup)

-- ============================================================== reading

/-- Reads an assignment of a SET list. -/
def assignment (g : Grammar) : Parser Assignment := do
  let first ← identifier
  let column ← if ← accept Sign.period then identifier else pure first
  expect Sign.equal
  let value ← g.expression 0
  pure ⟨column, value⟩

/-- Puts an assignment that was read into a list, or fails. -/
def register (set : List Assignment) (a : Assignment) : Parser (List Assignment) :=
  match insertAssignment? a set with
  | some set => pure set
  | none => fault (.assignedTwice a.column)

theorem assignments_eq (g : Grammar) :
    assignments g = commaFold (fun set => assignment g >>= register set) [] := by
  unfold assignments assignment
  congr 1
  funext set
  rw [bind_assoc]
  refine bind_congr fun first => ?_
  rw [bind_assoc]
  refine bind_congr fun qualified => ?_
  cases qualified
  all_goals
    simp only [Bool.false_eq_true, if_false, if_true, bind_assoc, pure_bind]
    rfl

/-- A round of reading a list with commas. -/
private def round {α : Type} (item : α → Parser α) (a : α) : Parser (Option α) := do
  if ← accept Sign.comma then some <$> item a else pure none

variable {around : Surroundings} {c d : Cursor} {written : List Assignment}

private theorem perform_round_end {α : Type} (item : α → Parser α) (a : α)
    (haccept : (accept Sign.comma).perform around c = .ok (false, d)) :
    (round item a).perform around c = .ok (none, d) :=
  perform_bind haccept

private theorem perform_round_more {α : Type} (item : α → Parser α) (a : α)
    (haccept : (accept Sign.comma).perform around c = .ok (true, d)) :
    (round item a).perform around c = (some <$> item a).perform around d :=
  perform_bind haccept

/-- The rest of a SET list. Where it can be read as a list of assignments,
it is read into a list of which no name is assigned twice, or a name is
and reading fails. -/
private theorem perform_rounds {g : Grammar} (count : Nat) {before : List Assignment}
    (hread : (iterateWithin (round fun items => do pure (items ++ [← assignment g])) count
      before).perform around c = .ok (written, d)) :
    ∃ behind, written = before ++ behind ∧ ∀ set,
      (∀ all, assignAll set behind = some all →
        (iterateWithin (round fun set => assignment g >>= register set) count set).perform
          around c = .ok (all, d)) ∧
      (assignAll set behind = none → ∃ position column,
        (iterateWithin (round fun set => assignment g >>= register set) count set).perform
          around c = .error (.malformed position (.assignedTwice column))) := by
  induction count generalizing before c with
  | zero =>
      cases hread
      refine ⟨[], (List.append_nil _).symm, fun set => ⟨fun all hall => ?_, nofun⟩⟩
      cases hall
      rfl
  | succ count ih =>
      obtain ⟨next, c₁, hround, hrest⟩ := perform_bind_eq_ok.mp hread
      obtain ⟨comma, c₂, haccept, hitem⟩ := perform_bind_eq_ok.mp hround
      cases comma with
      | false =>
          cases hitem
          cases hrest
          refine ⟨[], (List.append_nil _).symm, fun set => ⟨fun all hall => ?_, nofun⟩⟩
          cases hall
          exact perform_bind (perform_round_end _ set haccept)
      | true =>
          rw [perform_round_more _ before haccept, ← bind_pure_comp, bind_assoc] at hround
          obtain ⟨a, c₃, hassignment, hnext⟩ := perform_bind_eq_ok.mp hround
          cases hnext
          obtain ⟨behind, hwritten, hbehind⟩ := ih hrest
          refine ⟨a :: behind, by rw [hwritten, List.append_assoc, List.singleton_append],
            fun set => ?_⟩
          have hround : (round (fun set => assignment g >>= register set) set).perform around c =
              (some <$> register set a).perform around c₁ := by
            rw [perform_round_more _ set haccept, map_bind]
            exact perform_bind hassignment
          rw [assignAll_cons]
          cases hinsert : insertAssignment? a set with
          | none =>
              refine ⟨nofun, fun _ => ⟨c₁.position, a.column, perform_bind_error ?_⟩⟩
              rw [hround, register, hinsert]
              rfl
          | some inserted =>
              have hregistered : (round (fun set => assignment g >>= register set) set).perform
                  around c = .ok (some inserted, c₁) := by
                rw [hround, register, hinsert]
                rfl
              obtain ⟨hall, htwice⟩ := hbehind inserted
              refine ⟨fun all h => ?_, fun h => ?_⟩
              · exact (perform_bind hregistered).trans (hall all h)
              · obtain ⟨position, column, hfault⟩ := htwice h
                exact ⟨position, column, (perform_bind hregistered).trans hfault⟩

/-- A SET list is read iff no name is assigned twice in it. Otherwise
reading it fails for a name that is. -/
theorem perform_assignments {g : Grammar}
    (hread : (commaList (assignment g)).perform around c = .ok (written, d)) :
    (∀ set, assignAll [] written = some set →
        (assignments g).perform around c = .ok (set, d)) ∧
      (assignAll [] written = none → ∃ position column,
        (assignments g).perform around c =
          .error (.malformed position (.assignedTwice column))) := by
  rw [assignments_eq]
  obtain ⟨first, c₁, hfirst, hrest⟩ := perform_bind_eq_ok.mp hread
  obtain ⟨a, c₂, hassignment, hpure⟩ := perform_bind_eq_ok.mp hfirst
  cases hpure
  obtain ⟨c₃, c₄, hget, hrounds⟩ := perform_bind_eq_ok.mp hrest
  cases hget
  obtain ⟨behind, hwritten, hbehind⟩ := perform_rounds _ hrounds
  rw [List.nil_append, List.singleton_append] at hwritten
  subst hwritten
  have hone : (assignment g >>= register []).perform around c = .ok ([a], c₁) :=
    perform_bind hassignment
  obtain ⟨hall, htwice⟩ := hbehind [a]
  refine ⟨fun set h => ?_, fun h => ?_⟩
  · exact (perform_bind hone).trans (hall set h)
  · obtain ⟨position, column, hfault⟩ := htwice h
    exact ⟨position, column, (perform_bind hone).trans hfault⟩

end Grammar

-- ============================================================= columns

/-- Names that a table has columns for are of the same column iff they
are the same regardless of letter case. -/
theorem Table.columnIndex_inj {t : Table} {a b : String} {i j : Nat}
    (ha : t.columnIndex a = .ok i) (hb : t.columnIndex b = .ok j) :
    i = j ↔ Text.nameKey a = Text.nameKey b := by
  have hfound {name : String} {k : Nat} (h : t.columnIndex name = .ok k) :
      t.columns.findIdx? (Text.sameName ·.name name) = some k := by
    unfold columnIndex at h
    split at h
    · next hfind =>
        cases h
        exact hfind
    · cases h
  constructor
  · rintro rfl
    obtain ⟨hi, hsame, -⟩ := List.findIdx?_eq_some_iff_getElem.mp (hfound ha)
    obtain ⟨_, hsame', -⟩ := List.findIdx?_eq_some_iff_getElem.mp (hfound hb)
    exact (Text.sameName_iff.mp hsame).symm.trans (Text.sameName_iff.mp hsame')
  · intro h
    have hpredicate : (fun c : Column => Text.sameName c.name a) =
        fun c => Text.sameName c.name b := by
      funext c
      rw [Text.sameName, Text.sameName, h]
    have hboth := hfound ha
    rw [hpredicate, hfound hb] at hboth
    exact (Option.some.inj hboth).symm

namespace Assignment

/-- So each place is assigned once iff no name is assigned twice
regardless of letter case. -/
theorem nodup_places {t : Table} {scope : Scope} {set : List Assignment}
    {places : List PlaceAssignment} (h : resolveList t scope set = .ok places) :
    (places.map (·.index)).Nodup ↔ (keys set).Nodup := by
  have hindex {a : Assignment} {p : PlaceAssignment} (hp : a.resolve t scope = .ok p) :
      t.columnIndex a.column = .ok p.index := by
    obtain ⟨index, hcolumn, hp⟩ := Result.bind_eq_ok.mp hp
    obtain ⟨formula, -, hp⟩ := Result.bind_eq_ok.mp hp
    cases hp
    exact hcolumn
  have hall := Result.mapM_eq_ok.mp h
  have hindices : (places.map (·.index)).map .ok = set.map (t.columnIndex ·.column) := by
    clear h
    induction hall with
    | nil => rfl
    | cons hfirst _ ih => rw [List.map_cons, List.map_cons, List.map_cons, ih, hindex hfirst]
  -- each column has a place, which can be told from its name
  let place (a : Assignment) : Nat := (t.columnIndex a.column).toOption.getD 0
  have hplace {a : Assignment} (ha : a ∈ set) : t.columnIndex a.column = .ok (place a) := by
    have hmem : t.columnIndex a.column ∈ set.map (t.columnIndex ·.column) :=
      List.mem_map_of_mem ha
    rw [← hindices, List.mem_map] at hmem
    obtain ⟨index, -, hcolumn⟩ := hmem
    simp only [place, ← hcolumn]
    rfl
  have hplaces : places.map (·.index) = set.map place := by
    refine Result.map_ok_injective ?_
    rw [hindices, List.map_map]
    exact List.map_congr_left fun a ha => hplace ha
  rw [hplaces, keys]
  refine List.pairwise_map.trans (Iff.trans ?_ List.pairwise_map.symm)
  exact List.Pairwise.iff_of_mem fun ha hb =>
    not_congr (Table.columnIndex_inj (hplace ha) (hplace hb))

end Assignment

-- ========================================================== statements

/-- The SET list of what a clause of MERGE does, if it updates. -/
def MergeAction.sets : MergeAction → List (List Assignment)
  | update set => [set]
  | delete | insert _ _ => []

/-- The SET lists of a statement: that of UPDATE, or those of the clauses
of MERGE that update. -/
def Statement.sets : Statement → List (List Assignment)
  | update u => [u.assignments]
  | merge m => m.clauses.flatMap (·.action.sets)
  | _ => []

namespace Grammar

variable {g : Grammar} {upsert : Bool}

/-- All SET lists are sorted. -/
def SetsSorted (sets : List (List Assignment)) : Prop :=
  ∀ set ∈ sets, Assignment.Sorted set

section
variable (hg : MakesWellFormed g)
include hg

theorem moves_assignment : Moves upsert (assignment g) := by
  refine moves_identifier.then fun first => moves_accept.then fun _ => ?_
  refine .choose moves_identifier (makes_pure trivial) fun column _ => ?_
  refine moves_expect.then fun _ => (hg.expression upsert 0).then fun _ => makes_pure trivial

theorem makes_assignments_sorted : Makes upsert (assignments g) Assignment.Sorted := by
  rw [assignments_eq]
  have hitem : ∀ set, Assignment.Sorted set →
      Makes upsert (assignment g >>= register set) Assignment.Sorted := by
    refine fun set hset => (moves_assignment hg).then fun a => ?_
    unfold register
    split
    · next hinsert => exact makes_pure (insertAssignment_sorted hset hinsert).2
    · exact makes_fault
  exact makes_commaFold (hitem [] .nil) hitem

theorem makes_update_sets : Makes false (update g) (SetsSorted ·.sets) := by
  refine moves_expect.then fun _ => moves_tableName.then fun table => moves_expect.then fun _ => ?_
  refine (makes_assignments_sorted hg).bind fun set hset => ?_
  exact (makes_whereClause hg).then fun _ => makes_pure (List.forall_mem_singleton.mpr hset)

theorem makes_mergeAction_sets (matched : Bool) :
    Makes false (mergeAction g matched) (SetsSorted ·.sets) := by
  refine moves_next.then fun token => ?_
  split
  · refine moves_expect.then fun _ => (makes_assignments_sorted hg).map fun _ hset => ?_
    exact List.forall_mem_singleton.mpr hset
  · exact makes_pure (List.forall_mem_nil _)
  · refine moves_columnList.then fun columns => moves_expect.then fun _ => ?_
    exact (makes_valueRow hg).then fun _ => makes_pure (List.forall_mem_nil _)
  · exact makes_fault
  · exact makes_fault

theorem makes_mergeClause_sets :
    Makes false (mergeClause g) (SetsSorted ·.action.sets) := by
  have hend : ∀ matched : Bool, Makes false (do
      let condition ← clause? .AND (g.expression 0)
      expect Keyword.THEN
      pure (⟨matched, condition, ← mergeAction g matched⟩ : MergeClause))
        (SetsSorted ·.action.sets) := by
    refine fun matched => (makes_clause (hg.expression false 0)).then fun condition => ?_
    refine moves_expect.then fun _ => (makes_mergeAction_sets hg matched).bind fun action h => ?_
    exact makes_pure h
  refine moves_accept.then fun unmatched => moves_expect.then fun _ => ?_
  refine .choose (p := fun _ => True) (makes_pure trivial) moves_accept fun byTarget _ => ?_
  refine .ite (fun _ => ?_) fun _ => hend _
  exact moves_identifier.then fun name => .ite (fun _ => makes_fault_bind) fun _ => hend _

theorem makes_merge_sets : Makes false (merge g) (SetsSorted ·.sets) := by
  have hclauses : Makes false (iterate (fun clauses => do
      if ← accept Keyword.WHEN then pure (some (clauses ++ [← mergeClause g]))
      else pure none) []) fun clauses => ∀ clause ∈ clauses, SetsSorted clause.action.sets := by
    refine makes_iterate (fun clauses hclauses => ?_) (List.forall_mem_nil _)
    refine moves_accept.then fun _ => .ite (fun _ => ?_) fun _ => makes_none
    refine (makes_mergeClause_sets hg).bind fun clause hclause => ?_
    exact makes_some (forall_mem_concat hclauses hclause)
  refine moves_expect.then fun _ => moves_require.then fun _ => moves_skipOver.then fun _ => ?_
  refine moves_tableRef.then fun target => moves_expect.then fun _ => ?_
  refine (makes_mergeSource hg).then fun source => moves_expect.then fun _ => ?_
  refine (hg.expression false 0).then fun predicate => ?_
  refine hclauses.bind fun clauses hclauses => .ite (fun _ => ?_) fun _ => makes_pure ?_
  · exact moves_peekPosition.then fun _ => makes_throw_bind
  · intro set hset
    obtain ⟨clause, hclause, hset⟩ := List.mem_flatMap.mp hset
    exact hclauses clause hclause set hset

theorem makes_statement_sets : Makes false (statement g) (SetsSorted ·.sets) := by
  have hnone {x : Parser Statement} (hmoves : Moves false x)
      (hyields : Parser.Yields x fun s => s.sets = []) :
      Makes false x (SetsSorted ·.sets) := by
    intro around c s d hupsert hperform
    refine ⟨?_, (hmoves around c s d hupsert hperform).2⟩
    show SetsSorted s.sets
    rw [hyields around c s d hperform]
    exact List.forall_mem_nil _
  have hmap {α : Type} {x : Parser α} {f : α → Statement} (hf : ∀ a, (f a).sets = []) :
      Parser.Yields (f <$> x) fun s => s.sets = [] := by
    rw [← bind_pure_comp]
    exact yields_bind fun a => yields_pure (hf a)
  have hquery : Makes false (Statement.select <$> g.select) fun s => SetsSorted s.sets :=
    (hg.select false).map fun _ _ => List.forall_mem_nil _
  refine moves_peekPosition.then fun position => moves_peek.then fun token => ?_
  split
  · exact makes_ending
  · refine hnone (makes_createTable hg).moves ?_
    exact yields_bind fun _ => yields_bind fun _ => yields_bind fun _ => yields_bind fun _ =>
      yields_pure rfl
  · refine hnone makes_dropTable.moves ?_
    refine yields_bind fun _ => yields_bind fun _ => yields_bind fun _ => yields_when ?_
    exact yields_bind fun _ => yields_pure rfl
  · refine hnone (makes_delete hg).moves ?_
    refine yields_bind fun _ => yields_bind fun _ => yields_when ?_
    exact yields_bind fun _ => yields_bind fun _ => yields_pure rfl
  · refine hnone (makes_insert hg).moves ?_
    refine yields_bind fun _ => yields_bind fun _ => yields_bind fun _ => yields_bind fun _ => ?_
    refine yields_bind fun _ => ?_
    split
    · exact yields_bind fun _ => yields_bind fun _ => hmap fun _ => rfl
    · exact yields_bind fun _ => yields_bind fun _ => yields_bind fun _ => hmap fun _ => rfl
  · exact hquery
  · exact hquery
  · exact makes_update_sets hg
  · exact makes_merge_sets hg
  · exact makes_throw

end

end Grammar

-- ============================================================== binding

section
variable {ps : Parameters}

/-- Binding placeholders leaves the names that are assigned. -/
theorem Assignment.names_bind {set bound : List Assignment}
    (h : Assignment.bindList ps set = .ok bound) : names bound = names set := by
  have hall := Result.mapM_eq_ok.mp h
  clear h
  induction hall with
  | nil => rfl
  | cons hfirst _ ih =>
      obtain ⟨value, -, hfirst⟩ := Result.bind_eq_ok.mp hfirst
      cases hfirst
      rw [names, names, List.map_cons, List.map_cons]
      exact congrArg _ ih

theorem MergeAction.names_bind {action bound : MergeAction} (h : action.bind ps = .ok bound) :
    bound.sets.map Assignment.names = action.sets.map Assignment.names := by
  cases action with
  | update set =>
      obtain ⟨set', hset, h⟩ := Result.bind_eq_ok.mp h
      cases h
      exact congrArg (fun names => [names]) (Assignment.names_bind hset)
  | delete =>
      cases h
      rfl
  | insert columns values =>
      obtain ⟨values', -, h⟩ := Result.bind_eq_ok.mp h
      cases h
      rfl

theorem MergeClause.names_bind {clauses bound : List MergeClause}
    (h : clauses.mapM (·.bind ps) = .ok bound) :
    (bound.flatMap (·.action.sets)).map Assignment.names =
      (clauses.flatMap (·.action.sets)).map Assignment.names := by
  have hall := Result.mapM_eq_ok.mp h
  clear h
  induction hall with
  | nil => rfl
  | cons hfirst _ ih =>
      obtain ⟨_, -, hfirst⟩ := Result.bind_eq_ok.mp hfirst
      obtain ⟨action, haction, hfirst⟩ := Result.bind_eq_ok.mp hfirst
      cases hfirst
      rw [List.flatMap_cons, List.flatMap_cons, List.map_append, List.map_append, ih]
      exact congrArg (· ++ _) (MergeAction.names_bind haction)

theorem Statement.names_bind {s bound : Statement} (h : s.bind ps = .ok bound) :
    bound.sets.map Assignment.names = s.sets.map Assignment.names := by
  cases s with
  | createTable name columns =>
      obtain ⟨_, -, h⟩ := Result.bind_eq_ok.mp h
      cases h
      rfl
  | dropTable name ifExists =>
      cases h
      rfl
  | select q =>
      obtain ⟨_, -, h⟩ := Result.bind_eq_ok.mp h
      cases h
      rfl
  | insert i =>
      obtain ⟨_, -, h⟩ := Result.bind_eq_ok.mp h
      obtain ⟨_, -, h⟩ := Result.bind_eq_ok.mp h
      obtain ⟨_, -, h⟩ := Result.bind_eq_ok.mp h
      cases h
      rfl
  | update u =>
      obtain ⟨set, hset, h⟩ := Result.bind_eq_ok.mp h
      obtain ⟨_, -, h⟩ := Result.bind_eq_ok.mp h
      cases h
      exact congrArg (fun names => [names]) (Assignment.names_bind hset)
  | delete d =>
      obtain ⟨_, -, h⟩ := Result.bind_eq_ok.mp h
      cases h
      rfl
  | merge m =>
      obtain ⟨_, -, h⟩ := Result.bind_eq_ok.mp h
      obtain ⟨_, -, h⟩ := Result.bind_eq_ok.mp h
      obtain ⟨clauses, hclauses, h⟩ := Result.bind_eq_ok.mp h
      cases h
      exact MergeClause.names_bind hclauses

end

/-- What a text is read as has its SET lists sorted. -/
theorem Statement.parse_sets {version : DialectVersion} {text : String} {s : Statement}
    (h : parse version text = .ok s) : Grammar.SetsSorted s.sets := by
  obtain ⟨⟨s, c⟩, hperform, hpure⟩ := Result.bind_eq_ok.mp h
  cases hpure
  obtain ⟨-, behind, hstatement, -⟩ := Grammar.perform_wholeStatement hperform
  exact (Grammar.makes_statement_sets (Grammar.makesWellFormed_ofDepth _) _ _ _ _ rfl hstatement).1

/-- Of names without ASCII capitals, as all are that are not quoted, no
two differ in letter case only. -/
theorem Assignment.Sorted.nodup_keys {set : List Assignment} (h : Assignment.Sorted set)
    (hlower : ∀ a ∈ set, Text.nameKey a.column = a.column.toList) :
    (Assignment.keys set).Nodup := by
  have hkeys : Assignment.keys set = (Assignment.names set).map String.toList := by
    rw [Assignment.keys, Assignment.names, List.map_map]
    exact List.map_congr_left hlower
  rw [hkeys]
  exact List.Pairwise.map String.toList
    (fun _ _ hne heq => hne (String.toList_injective heq)) h.nodup

/-- What a column is assigned in UPDATE and in MERGE.

A SET list that can be read assignment by assignment is read iff no two
of them have the same name, and keeps all of them; with two of one name
the text is malformed. So in a statement that is executed, every SET list
has its names in order and each once, and where all of them are columns
of a table, their places in its rows are different iff no two names
differ in letter case only. -/
theorem Statement.assigns_once (g : Grammar) (version : DialectVersion) (text : String)
    (ps : Parameters) :
    (∀ (around : Surroundings) (c d : Cursor) (written : List Assignment),
      (commaList (Grammar.assignment g)).perform around c = .ok (written, d) →
        ((Assignment.names written).Nodup → ∃ set : List Assignment,
          (Grammar.assignments g).perform around c = .ok (set, d) ∧ set.Perm written) ∧
        (¬(Assignment.names written).Nodup → ∃ position column,
          (Grammar.assignments g).perform around c =
            .error (.malformed position (.assignedTwice column)))) ∧
    ∀ s bound : Statement, parse version text = .ok s → s.bind ps = .ok bound →
      ∀ set ∈ bound.sets, Assignment.Sorted set ∧
        ∀ (t : Table) (scope : Scope) (places : List PlaceAssignment),
          Assignment.resolveList t scope set = .ok places →
            ((places.map (·.index)).Nodup ↔ (Assignment.keys set).Nodup) := by
  constructor
  · intro around c d written hread
    obtain ⟨hall, htwice⟩ := Grammar.perform_assignments hread
    cases hassign : Grammar.assignAll [] written with
    | none =>
        have hrepeats := Grammar.assignAll_eq_none .nil hassign
        exact ⟨fun hnodup => absurd hnodup hrepeats, fun _ => htwice hassign⟩
    | some set =>
        obtain ⟨hnodup, hperm, -⟩ := Grammar.assignAll_eq_some .nil hassign
        exact ⟨fun _ => ⟨set, hall set hassign, hperm⟩, fun hrepeats => absurd hnodup hrepeats⟩
  · intro s bound hparse hbind set hset
    have hnames : Assignment.names set ∈ s.sets.map Assignment.names := by
      rw [← Statement.names_bind hbind]
      exact List.mem_map_of_mem hset
    obtain ⟨read, hread, hsame⟩ := List.mem_map.mp hnames
    refine ⟨?_, fun t scope places hplaces => Assignment.nodup_places hplaces⟩
    rw [Assignment.sorted_iff, ← hsame, ← Assignment.sorted_iff]
    exact Statement.parse_sets hparse read hread

namespace SetLists

/-- `CREATE TABLE t (id INT PRIMARY KEY, a INT, b INT)` -/
def target : Table :=
  ⟨"t", [⟨"id", .integer, true, false, none, false⟩, ⟨"a", .integer, false, true, some .null, false⟩,
    ⟨"b", .integer, false, true, some .null, false⟩]⟩

/-- One row of it. -/
def holding (a : Value) : Store :=
  ⟨[⟨"t", target, [[.integer 1, a, .null]]⟩]⟩

/-- Where reading a text begins, and what is around it. -/
def start (text : String) : Surroundings × Cursor :=
  let lexed := Lexer.lex Dialect.postgreSql.lexical text
  ({ version := ⟨.postgreSql, 16⟩, failure := lexed.failure, size := text.utf8ByteSize },
    { lexemes := lexed.lexemes })

/-- The names in the SET lists of a text, and the places that they have in
the rows of the table. -/
def assigned (text : String) : Result (List (List String × List Nat)) := do
  let s ← Statement.parse ⟨.postgreSql, 16⟩ text
  let bound ← s.bind []
  bound.sets.mapM fun set => do
    let places ← Assignment.resolveList target target.scope set
    return (Assignment.names set, places.map (·.index))

/-- `a = 1, b = 2, t.a = 3` is malformed, and `UPDATE t SET b = 1, a = 2`
assigns each column once. -/
theorem each_column_once :
    (∃ position column, (Grammar.assignments (Grammar.ofDepth 9)).perform
      (start "a = 1, b = 2, t.a = 3").1 (start "a = 1, b = 2, t.a = 3").2 =
        .error (.malformed position (.assignedTwice column))) ∧
    ∃ s bound set, Statement.parse ⟨.postgreSql, 16⟩ "UPDATE t SET b = 1, a = 2" = .ok s ∧
      s.bind [] = .ok bound ∧ set ∈ bound.sets ∧ Assignment.names set = ["a", "b"] ∧
      Assignment.Sorted set ∧ (Assignment.keys set).Nodup := by
  constructor
  · have hreads : (Assignment.names ·.1) <$> (commaList (Grammar.assignment
        (Grammar.ofDepth 9))).perform (start "a = 1, b = 2, t.a = 3").1
          (start "a = 1, b = 2, t.a = 3").2 = .ok ["a", "b", "a"] := by
      decide +kernel
    obtain ⟨⟨written, d⟩, hread, hnames⟩ := Result.map_eq_ok.mp hreads
    refine ((Statement.assigns_once _ ⟨.postgreSql, 16⟩ "" []).1 _ _ d written hread).2 ?_
    rw [show Assignment.names written = _ from hnames]
    decide
  · have hassigns : assigned "UPDATE t SET b = 1, a = 2" = .ok [(["a", "b"], [1, 2])] := by
      decide +kernel
    obtain ⟨s, hparse, hrest⟩ := Result.bind_eq_ok.mp hassigns
    obtain ⟨bound, hbind, hrest⟩ := Result.bind_eq_ok.mp hrest
    obtain ⟨set, _, hset, -, hsets⟩ := List.forall₂_cons_right_iff.mp (Result.mapM_eq_ok.mp hrest)
    obtain ⟨places, hplaces, hpair⟩ := Result.bind_eq_ok.mp hset
    obtain ⟨hnames, hindices⟩ := Prod.ext_iff.mp (Result.pure_eq_ok.mp hpair)
    have hmem : set ∈ bound.sets := hsets ▸ List.mem_cons_self
    obtain ⟨hsorted, honce⟩ :=
      (Statement.assigns_once (Grammar.ofDepth 9) _ _ []).2 s bound hparse hbind set hmem
    refine ⟨s, bound, set, hparse, hbind, hmem, hnames, hsorted, ?_⟩
    refine (honce target target.scope places hplaces).mp ?_
    rw [show places.map (·.index) = _ from hindices]
    decide

/-- `UPDATE t SET a = 1, "A" = 2` is executed all the same, assigns the
column twice, and leaves what stands first. -/
theorem column_twice :
    assigned "UPDATE t SET a = 1, \"A\" = 2" = .ok [(["A", "a"], [1, 1])] ∧
      ((Statement.run ⟨.postgreSql, 16⟩ [] "UPDATE t SET a = 1, \"A\" = 2").perform
        (holding .null)).2 = holding (.integer 1) := by
  constructor <;> decide +kernel

end SetLists

end DialectDb
