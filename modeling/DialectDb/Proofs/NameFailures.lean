/-
Whether a statement fails for a name does not depend on the rows of the
tables. What a statement resolves before it looks at a row is its
outline, which is the same on all stores with the same tables, and it
fails for a name only if its outline does.

There are two exceptions, which the outline leaves out. The names within
a subquery are looked up for each row that reaches its condition, and
the number of columns of a query that INSERT takes its values from is
compared for each row of it; with no rows, neither comes up. `RestNamed`
says that both are right.
-/
import DialectDb.Proofs.Foreseen
import DialectDb.Proofs.SafeWriting
import DialectDb.Proofs.Widths

namespace DialectDb

open DialectDb.Action

-- ============================================================= outlines

/-- The columns of a named query. -/
def Cte.outline (version : DialectVersion) (store : Store) (before : List (String × Relation))
    (cte : Cte) : Result (List (String × Relation)) := do
  if cte.recursive then throw (.unsupported version (.recursiveEvaluation cte.name))
  let columns ← cte.body.outline { store, ctes := before }
  return before ++ [(cte.name, ← cte.rename ⟨columns, .done⟩)]

/-- The columns of a query, given its WITH clause. -/
def Select.evaluateOutline (version : DialectVersion) (store : Store) (q : Select) :
    Result (List String) := do
  let ctes ← q.ctes.foldlM (Cte.outline version store) []
  Select.outline { store, ctes } { q with ctes := [] }

namespace Statement

/-- What INSERT resolves for its values. Rows that are written out read
no table, so all that is done for them is part of it. -/
def valuesOutline (i : Insert) (version : DialectVersion) (store : Store) (t : Table)
    (places : List Nat) : Result Unit :=
  match i.query with
  | some q => do let _ ← q.evaluateOutline version store
  | none => do let _ ← i.buildRows t places (← i.values version store)

/-- The scope of the rows that MERGE takes. -/
def sourceOutline (version : DialectVersion) (store : Store) : MergeSource → Result Scope
  | .table table => do
    let relation ← ({ store } : Context).relation table.name
    return Scope.ofColumns table.label relation.columns
  | .query q aliasName => do
    return Scope.ofColumns aliasName (← q.evaluateOutline version store)

/-- What a statement resolves before it looks at a row. -/
def outline (version : DialectVersion) (store : Store) : Statement → Result Unit
  | .createTable name columns => do
    let table ← ColumnDefinition.table name columns
    table.validate
    if store.entries.any (·.key = Store.keyOf table.name) then
      throw (.schema (.tableExists table.name))
  | .dropTable name ifExists => do
    if !store.entries.any (·.key = Store.keyOf name) && !ifExists then
      throw (.schema (.noTable name))
  | .select q => do let _ ← q.evaluateOutline version store
  | .insert i => do
    let table := (← store.get i.table).table
    let places ← table.valuePlaces i.columns
    valuesOutline i version store table places
    let _ ← i.resolution table
  | .update u => do
    let table := (← store.get u.table).table
    let _ ← Assignment.resolveList table table.scope u.assignments
    let _ ← u.predicate.mapM fun e => table.scope.resolve e.withoutSubqueries
  | .delete d => do
    let table := (← store.get d.table).table
    let _ ← d.predicate.mapM fun e => table.scope.resolve e.withoutSubqueries
  | .merge m => do
    let sourceScope ← sourceOutline version store m.source
    let table := (← store.get m.target.name).table
    let scope ← (Scope.ofColumns m.target.label table.columnNames).merge sourceScope
    let _ ← scope.resolve m.predicate
    let _ ← Merge.resolveClauses table scope m.clauses

end Statement

/-- The subqueries of named queries are named, given those before
them. -/
def Cte.SubqueriesNamedOfList (version : DialectVersion) (store : Store) :
    List (String × Relation) → List Cte → Prop
  | _, [] => True
  | before, cte :: rest =>
    cte.body.SubqueriesNamed { store, ctes := before } ∧
      ∀ after, cte.outline version store before = .ok after →
        Cte.SubqueriesNamedOfList version store after rest

/-- The subqueries of a query and of its WITH clause are named. -/
def Select.AllSubqueriesNamed (version : DialectVersion) (store : Store) (q : Select) : Prop :=
  Cte.SubqueriesNamedOfList version store [] q.ctes ∧
    ∀ ctes, q.ctes.foldlM (Cte.outline version store) [] = .ok ctes →
      Select.SubqueriesNamed { store, ctes } { q with ctes := [] }

def MergeSource.SubqueriesNamed (version : DialectVersion) (store : Store) : MergeSource → Prop
  | .table _ => True
  | .query q _ => q.AllSubqueriesNamed version store

/-- The query that INSERT takes its values from has as many columns as
are to be filled. -/
def Insert.QueryFits (i : Insert) (version : DialectVersion) (store : Store) : Prop :=
  ∀ q ∈ i.query, ∀ stored places columns, store.get i.table = .ok stored →
    stored.table.valuePlaces i.columns = .ok places →
    q.evaluateOutline version store = .ok columns →
      checkValueCount i.columns places.length columns.length = .ok ()

namespace Statement

/-- What the outline of a statement leaves out is right: the names
within its subqueries, and the number of columns of a query that INSERT
takes its values from. -/
def RestNamed (version : DialectVersion) (store : Store) : Statement → Prop
  | .createTable _ _ | .dropTable _ _ => True
  | .select q => q.AllSubqueriesNamed version store
  | .insert i =>
    (∀ q ∈ i.query, q.AllSubqueriesNamed version store) ∧ i.QueryFits version store
  | .update u => ∀ stored, store.get u.table = .ok stored →
    Expr.SubqueriesNamedOfOption { store, outer := [stored.table.scope.frame] } u.predicate
  | .delete d => ∀ stored, store.get d.table = .ok stored →
    Expr.SubqueriesNamedOfOption { store, outer := [stored.table.scope.frame] } d.predicate
  | .merge m => m.source.SubqueriesNamed version store

/-- Executes a statement and reads all rows of a query. -/
def attempt (version : DialectVersion) (store : Store) (s : Statement) : Result Unit := do
  match ← ((s.execute version).perform store).1 with
  | .effect _ => pure ()
  | .answer answer => do let _ ← answer.rows.collect

end Statement

-- =============================================================== tables

namespace Store

theorem find?_emptied (s : Store) (name : String) :
    s.emptied.find? name = (s.find? name).map fun stored => { stored with rows := [] } := by
  unfold find? emptied
  rw [List.find?_map, Option.map_map, Option.map_map]
  rfl

/-- The tables are the same. -/
theorem get_follows {named : Prop} (s : Store) (name : String) :
    Follows named (fun stored stored' => stored'.table = stored.table) (s.get name)
      (s.emptied.get name) := by
  unfold get
  rw [find?_emptied]
  cases s.find? name with
  | none => exact .error _
  | some stored => exact .pure rfl

/-- Valid stores with the same tables differ in rows only. -/
theorem emptied_eq {a b : Store} (ha : a.Valid) (hb : b.Valid) (htables : a.tables = b.tables) :
    a.emptied = b.emptied := by
  have hentries : ∀ s : Store, s.Valid →
      s.emptied.entries = s.tables.map fun t => ⟨keyOf t.name, ⟨t, []⟩⟩ := by
    intro s hs
    unfold emptied tables
    rw [List.map_map]
    refine List.map_congr_left fun e he => ?_
    rw [hs.keyed e he]
    rfl
  show Store.mk a.emptied.entries = Store.mk b.emptied.entries
  rw [hentries a ha, hentries b hb, htables]

end Store

/-- Named queries with the same columns. -/
abbrev SameHeadings (ctes ctes' : List (String × Relation)) : Prop :=
  List.Forall₂ (fun cte cte' => cte'.1 = cte.1 ∧ cte'.2.columns = cte.2.columns) ctes ctes'

/-- The named query that is found has the same columns. -/
theorem SameHeadings.find? {ctes ctes' : List (String × Relation)} (h : SameHeadings ctes ctes')
    (name : String) :
    Option.Rel (fun cte cte' => cte'.2.columns = cte.2.columns)
      (ctes.find? fun (cte, _) => Text.sameName cte name)
      (ctes'.find? fun (cte, _) => Text.sameName cte name) := by
  induction h with
  | nil => exact .none
  | @cons cte cte' rest rest' hcte _ ih =>
      obtain ⟨own, relation⟩ := cte
      obtain ⟨own', relation'⟩ := cte'
      obtain ⟨rfl, hcolumns⟩ := hcte
      rw [List.find?_cons, List.find?_cons]
      dsimp only
      cases Text.sameName own' name with
      | true => exact .some hcolumns
      | false => exact ih

/-- The tables without rows, with named queries of the same columns. -/
theorem Store.emptied_sameColumns (s : Store) {ctes ctes' : List (String × Relation)}
    (h : SameHeadings ctes ctes') :
    Context.SameColumns { store := s, ctes } { store := s.emptied, ctes := ctes' } := by
  refine ⟨fun name => ?_, .nil⟩
  have hfind := SameHeadings.find? (List.forall₂_reverse_iff.mpr h) name
  unfold Context.relation
  dsimp only
  generalize ctes.reverse.find? _ = found at hfind ⊢
  generalize ctes'.reverse.find? _ = found' at hfind ⊢
  cases hfind with
  | some hcolumns => exact .pure hcolumns
  | none =>
      rw [find?_emptied]
      cases s.find? name with
      | none => exact .ite (fun _ => .pure rfl) fun _ => .error _
      | some stored => exact .pure rfl

-- ============================================================== queries

variable {named : Prop} {version : DialectVersion} {store : Store}

theorem Cte.rename_follows (cte : Cte) {answer : Answer} {columns : List String}
    (h : answer.Foreseen named columns) :
    Follows named (fun r r' => r'.columns = r.columns) (cte.rename answer)
      (cte.rename ⟨columns, .done⟩) := by
  refine .read (fun hnamed => (h.rows hnamed).collect) fun rows _ => ?_
  rw [h.columns]
  exact .ite (fun _ => .pure rfl) fun _ => .ite (fun _ => .pure rfl) fun _ => .error _

theorem Cte.evaluate_follows (cte : Cte) {before before' : List (String × Relation)}
    (h : SameHeadings before before')
    (hnamed : named → cte.body.SubqueriesNamed { store := store.emptied, ctes := before' }) :
    Follows named SameHeadings (cte.evaluate version store before)
      (cte.outline version store.emptied before') := by
  have hbody := (Select.answer_follows cte.body (store.emptied_sameColumns h)).mono hnamed
  unfold evaluate outline
  refine .guard fun _ => hbody.bind fun answer columns hanswer => ?_
  refine (cte.rename_follows ⟨hanswer.columns, fun hn => hanswer.rows (hnamed hn)⟩).bind ?_
  intro relation relation' hcolumns
  exact .pure (List.rel_append h (.cons ⟨rfl, hcolumns⟩ .nil))

theorem Cte.evaluateList_follows (ctes : List Cte) {before before' : List (String × Relation)}
    (h : SameHeadings before before')
    (hnamed : named → Cte.SubqueriesNamedOfList version store.emptied before' ctes) :
    Follows named SameHeadings (ctes.foldlM (Cte.evaluate version store) before)
      (ctes.foldlM (Cte.outline version store.emptied) before') := by
  induction ctes generalizing before before' with
  | nil => exact .pure h
  | cons cte rest ih =>
      rw [List.foldlM_cons, List.foldlM_cons]
      refine (cte.evaluate_follows h fun hn => (hnamed hn).1).attach.bind ?_
      rintro after after' ⟨-, houtline, hafter⟩
      exact ih hafter fun hn => (hnamed hn).2 after' houtline

/-- A query follows its outline, with its WITH clause. -/
theorem Select.evaluate_follows (q : Select)
    (hnamed : named → q.AllSubqueriesNamed version store.emptied) :
    Follows named (Answer.Foreseen named) (q.evaluate version store)
      (q.evaluateOutline version store.emptied) := by
  refine (Cte.evaluateList_follows q.ctes .nil fun hn => (hnamed hn).1).attach.bind ?_
  rintro ctes ctes' ⟨-, houtline, hctes⟩
  have hbody : named → Select.SubqueriesNamed { store := store.emptied, ctes := ctes' }
      { q with ctes := [] } := fun hn => (hnamed hn).2 ctes' houtline
  refine ((Select.answer_follows _ (store.emptied_sameColumns hctes)).mono hbody).imp ?_
  exact fun answer columns hanswer => ⟨hanswer.columns, fun hn => hanswer.rows (hbody hn)⟩

-- ============================================================= writing

/-- A change of a table's rows that fails for no name adds nothing to
what is resolved before it. -/
theorem Store.mutate_follows {α β : Type} {name : String}
    {change : Table → Action (Array Row) α} {stored : StoredTable} (g : α → β)
    (hget : store.get name = .ok stored)
    (h : (change stored.table).FailsOnly Error.NoName stored.rows.toArray) :
    Follows named (fun _ _ => True)
      ((mutate name change >>= fun a => pure (g a)).perform store).1 (.ok ()) :=
  .unread
    (fun _ => nameSafe_iff.mpr (failsOnly_bind (failsOnly_mutate hget h) fun _ _ _ =>
      failsOnly_pure _))
    fun _ _ => trivial

/-- The mask of a WHERE clause follows the resolution of the
condition. -/
theorem StoredTable.mask_follows (stored : StoredTable) (predicate : Option Expr)
    (hnamed : named → Expr.SubqueriesNamedOfOption
      { store := store.emptied, outer := [stored.table.scope.frame] } predicate) :
    Follows named (fun _ _ => True) (stored.mask store predicate)
      (predicate.mapM fun e => stored.table.scope.resolve e.withoutSubqueries) := by
  have hscope : stored.table.scope.SameColumns stored.table.scope := ⟨rfl, .nil⟩
  have hcontext : Context.SameColumns { store } { store := store.emptied } :=
    store.emptied_sameColumns .nil
  cases predicate with
  | none => exact .pure trivial
  | some e =>
      rw [Option.mapM_some, ← bind_pure_comp]
      refine (Condition.mask_follows (d := { store }) hscope rfl (fun hn row => ?_)
        stored.rows).forget some
      refine Expr.nameSafe_expand e (hcontext.within ?_) (hnamed hn)
      exact .cons (Scope.frame_sameColumns rfl row) .nil

theorem Delete.execute_follows (d : Delete)
    (hnamed : named → (Statement.delete d).RestNamed version store.emptied) :
    Follows named (fun _ _ => True) (d.execute.perform store).1
      ((Statement.delete d).outline version store.emptied) := by
  unfold execute Statement.outline
  simp only [perform_get_bind, perform_lift_bind_fst]
  refine (store.get_follows d.table).attach.bind ?_
  rintro stored stored' ⟨hget, hget', htable⟩
  rw [htable]
  refine (stored.mask_follows d.predicate fun hn => ?_).bind fun mask _ _ => ?_
  · exact htable ▸ hnamed hn stored' hget'
  · exact Store.mutate_follows _ hget (failsOnly_get_bind (.ok _))

theorem Update.execute_follows (u : Update) (hstore : store.Valid)
    (hnamed : named → (Statement.update u).RestNamed version store.emptied) :
    Follows named (fun _ _ => True) (u.execute.perform store).1
      ((Statement.update u).outline version store.emptied) := by
  unfold execute Statement.outline
  simp only [perform_get_bind, perform_lift_bind_fst]
  refine (store.get_follows u.table).attach.bind ?_
  rintro stored stored' ⟨hget, hget', htable⟩
  rw [htable]
  refine .bind_same fun assignments hassignments => ?_
  refine (stored.mask_follows u.predicate fun hn => ?_).attach.bind ?_
  · exact htable ▸ hnamed hn stored' hget'
  · rintro mask - ⟨hmask, -, -⟩
    have hvalid := hstore.tables _ (Store.get_mem hget)
    have hwithin :=
      (Assignment.resolveList_yields (Scope.sound_ofColumns _ _) _).of_ok _ hassignments
    rw [stored.table.width_ofColumns] at hwithin
    refine Store.mutate_follows _ hget (Yields.weaken
      (onValues_updateRows hwithin (fun index hindex => ?_) hvalid.holds) fun _ he => he.noName)
    obtain ⟨keep, rfl⟩ := StoredTable.mask_eq_map hmask
    obtain ⟨row, hrow, -⟩ := mem_selectedPlaces.mp hindex
    exact (List.getElem?_eq_some_iff.mp hrow).1

namespace Insert

/-- The rows of INSERT follow what is resolved for its values. -/
theorem values_follow (i : Insert) {stored : StoredTable} {places : List Nat}
    (hget : store.emptied.get i.table = .ok stored)
    (hplaces : stored.table.valuePlaces i.columns = .ok places)
    (hnamed : named → (Statement.insert i).RestNamed version store.emptied) :
    Follows named (fun _ _ => True) (i.values version store >>= i.buildRows stored.table places)
      (Statement.valuesOutline i version store.emptied stored.table places) := by
  unfold Statement.valuesOutline
  cases hquery : i.query with
  | none =>
      have hvalues : i.values version store = i.values version store.emptied := by
        simp only [values, hquery]
      rw [hvalues]
      exact .bind_same fun rows _ => (Follows.refl _).forget _
  | some q =>
      simp only [values, hquery, bind_assoc]
      refine (q.evaluate_follows fun hn => (hnamed hn).1 q hquery).attach.bind ?_
      rintro answer columns ⟨heval, houtline, hanswer⟩
      refine .read (fun hn => (hanswer.rows hn).collect) fun rows hrows => ?_
      refine .unread (fun hn => .mapM fun row hrow => ?_) fun _ _ => trivial
      have hwidth : row.length = columns.length :=
        hanswer.columns ▸ (Select.evaluate_regular heval).collect hrows row hrow
      have hcount := (hnamed hn).2 q hquery stored places columns hget hplaces houtline
      rw [hwidth, hcount]
      exact (Table.onRow_buildRow places row).onValues.nameSafe

theorem execute_follows (i : Insert) (hstore : store.Valid)
    (hnamed : named → (Statement.insert i).RestNamed version store.emptied) :
    Follows named (fun _ _ => True) ((i.execute version).perform store).1
      ((Statement.insert i).outline version store.emptied) := by
  unfold execute Statement.outline
  simp only [perform_get_bind, perform_lift_bind_fst]
  refine (store.get_follows i.table).attach.bind ?_
  rintro stored stored' ⟨hget, hget', htable⟩
  rw [← htable]
  refine .bind_same fun places hplaces => ?_
  rw [← bind_assoc]
  refine (i.values_follow hget' hplaces hnamed).attach.bind ?_
  rintro rows - ⟨hrows, -, -⟩
  obtain ⟨values, -, hbuild⟩ := Result.bind_eq_ok.mp hrows
  refine .bind_same fun resolution hresolution => ?_
  have hwithin := (i.resolution_yields stored'.table).of_ok resolution hresolution
  have hvalid := (hstore.tables _ (Store.get_mem hget)).validRows
  rw [← htable] at hvalid
  have hwritten : (writeRows stored.table resolution rows).OnValues stored.rows.toArray := by
    rw [← htable]
    exact onValues_writeRows hwithin.2 (buildRows_holds hbuild) hvalid
  exact Store.mutate_follows _ hget (Yields.weaken hwritten fun _ he => he.noName)

end Insert

namespace Merge

theorem sourceRows_follows (source : MergeSource)
    (hnamed : named → source.SubqueriesNamed version store.emptied) :
    Follows named (fun taken scope => taken.1 = scope) (sourceRows version store source)
      (Statement.sourceOutline version store.emptied source) := by
  cases source with
  | table table =>
      have hcontext : Context.SameColumns { store } { store := store.emptied } :=
        store.emptied_sameColumns .nil
      refine ((hcontext.relation table.name).mono fun _ => trivial).bind fun r r' hcolumns => ?_
      exact .pure (hcolumns ▸ rfl)
  | query q aliasName =>
      refine (q.evaluate_follows hnamed).bind fun answer columns hanswer => ?_
      refine .read (fun hn => (hanswer.rows hn).collect) fun rows _ => .pure ?_
      exact hanswer.columns ▸ rfl

theorem execute_follows (m : Merge) (hstore : store.Valid)
    (hnamed : named → (Statement.merge m).RestNamed version store.emptied) :
    Follows named (fun _ _ => True) ((m.execute version).perform store).1
      ((Statement.merge m).outline version store.emptied) := by
  unfold execute Statement.outline
  simp only [perform_get_bind, perform_lift_bind_fst]
  refine (sourceRows_follows m.source hnamed).attach.bind ?_
  rintro ⟨sourceScope, source⟩ _ ⟨hsource, -, rfl⟩
  refine (store.get_follows m.target.name).attach.bind ?_
  rintro stored stored' ⟨hget, -, htable⟩
  rw [htable]
  refine .bind_same fun scope hscope => .bind_same fun predicate hpredicate => ?_
  refine .bind_same fun clauses hclauses => ?_
  have hvalid := hstore.tables _ (Store.get_mem hget)
  obtain ⟨hsound, hwidth⟩ := (scope_yields _ _ _).of_ok scope hscope
  have hwithin := (Scope.resolve_yields m.predicate hsound).of_ok predicate hpredicate
  have hclauses := (resolveClauses_yields _ hsound m.clauses).of_ok clauses hclauses
  rw [hwidth] at hwithin hclauses
  have hmerged : (mergeRows stored.table predicate clauses source).FailsOnly Error.OfClauses
      stored.rows.toArray :=
    mergeRows_failsOnly hwithin hclauses (sourceRows_regular hstore hsource) hvalid.holds
  exact Store.mutate_follows _ hget (Yields.weaken hmerged fun _ he => he.noName)

end Merge

-- ========================================================== statements

/-- No table has lost its name. -/
theorem Store.any_emptied (s : Store) (p : String → Bool) :
    s.emptied.entries.any (fun e => p e.key) = s.entries.any fun e => p e.key := by
  unfold emptied
  rw [List.any_map]
  rfl

namespace Statement

theorem createTable_follows (name : String) (columns : List ColumnDefinition) :
    Follows named (fun _ _ => True)
      ((do Store.createTable (← ColumnDefinition.table name columns) :
        Action Store Unit).perform store).1
      ((createTable name columns).outline version store.emptied) := by
  unfold outline
  rw [perform_lift_bind_fst]
  refine .bind_same fun table _ => ?_
  rw [Store.createTable_result, store.any_emptied (· = Store.keyOf table.name)]
  exact .bind_same fun _ _ => .ite (fun _ => .error _) fun _ => .pure trivial

theorem dropTable_follows (name : String) (ifExists : Bool) :
    Follows named (fun _ _ => True) ((Store.dropTable name ifExists).perform store).1
      ((dropTable name ifExists).outline version store.emptied) := by
  unfold outline
  dsimp only
  rw [Store.dropTable_result, store.any_emptied (· = Store.keyOf name)]
  cases store.entries.any _ with
  | true => exact .pure trivial
  | false =>
      cases ifExists with
      | true => exact .pure trivial
      | false => exact .error _

/-- A statement other than a query gives a report, and there is nothing
to read. -/
theorem attempt_effect {α : Type} {s : Statement} {x : Action Store α} {report : α → Effect}
    (h : s.execute version = x >>= fun a => pure (.effect (report a))) :
    s.attempt version store = (x.perform store).1 >>= fun _ => .ok () := by
  unfold attempt
  rw [h, bind_pure_comp, perform_map, bind_map_left]
  rfl

/-- A statement follows its outline. -/
theorem attempt_follows (s : Statement) (hstore : store.Valid) :
    Follows (s.RestNamed version store.emptied) (fun _ _ => True) (s.attempt version store)
      (s.outline version store.emptied) := by
  have heffect : ∀ {α : Type} {x : Action Store α} {report : α → Effect},
      s.execute version = (x >>= fun a => pure (.effect (report a))) →
        Follows (s.RestNamed version store.emptied) (fun _ _ => True) (x.perform store).1
          (s.outline version store.emptied) →
        Follows (s.RestNamed version store.emptied) (fun _ _ => True) (s.attempt version store)
          (s.outline version store.emptied) := by
    intro α x report hexecute hx
    rw [attempt_effect hexecute]
    exact hx.bind_ok fun _ _ _ => .pure trivial
  cases s with
  | createTable name columns =>
      exact heffect (bind_assoc _ _ _).symm (createTable_follows name columns)
  | dropTable name ifExists => exact heffect rfl (dropTable_follows name ifExists)
  | select q =>
      unfold attempt execute outline
      simp only [perform_get_bind, perform_lift_bind_fst, bind_assoc, perform_pure]
      refine (q.evaluate_follows id).bind fun answer columns hanswer => ?_
      exact .read (fun hn => (hanswer.rows hn).collect) fun rows _ => .pure trivial
  | insert i => exact heffect (bind_pure_comp _ _).symm (i.execute_follows hstore id)
  | update u => exact heffect (bind_pure_comp _ _).symm (u.execute_follows hstore id)
  | delete d => exact heffect (bind_pure_comp _ _).symm (d.execute_follows id)
  | merge m => exact heffect (bind_pure_comp _ _).symm (m.execute_follows hstore id)

/-- A statement that fails for a name on a store fails on every store
with the same tables, as long as what its outline leaves out is right. -/
theorem schema_failure_everywhere {a b : Store} (ha : a.Valid) (hb : b.Valid)
    (htables : a.tables = b.tables) (s : Statement)
    (hrest : s.outline version a.emptied = .ok () → s.RestNamed version a.emptied)
    {fault : SchemaFault} (h : s.attempt version a = .error (.schema fault)) :
    ∃ e, s.attempt version b = .error e := by
  cases hattempt : s.attempt version b with
  | error e => exact ⟨e, rfl⟩
  | ok u =>
      -- the outline succeeds on `b`, and it is the same on `a`
      obtain ⟨_, houtline, -⟩ := (s.attempt_follows hb).ok u hattempt
      rw [← Store.emptied_eq ha hb htables] at houtline
      have hfault := (s.attempt_follows ha).schema (hrest houtline) fault h
      rw [houtline] at hfault
      cases hfault

end Statement

namespace NameFailures

/-- A table of ids. -/
def idTable (name : String) : Table :=
  ⟨name, [⟨"id", .integer, true, false, none, false⟩]⟩

/-- Some users, and no orders. -/
def usersOnly (users : List Row) : Store where
  entries := [⟨"orders", idTable "orders", []⟩, ⟨"users", idTable "users", users⟩]

theorem usersOnly_valid {users : List Row} (hholds : ∀ row ∈ users, (idTable "users").Holds row)
    (hunique : (idTable "users").Unique users) : (usersOnly users).Valid where
  ordered := by
    have hkeys : "orders" < "users" := by decide
    exact List.pairwise_pair.mpr hkeys
  keyed := by
    have horders : "orders" = Store.keyOf "orders" := by decide
    have husers : "users" = Store.keyOf "users" := by decide
    exact List.forall_mem_cons.mpr ⟨horders, List.forall_mem_singleton.mpr husers⟩
  tables := by
    have horders : StoredTable.Valid ⟨idTable "orders", []⟩ :=
      .intro rfl (fun _ h => nomatch h) Table.unique_nil
    have husers : StoredTable.Valid ⟨idTable "users", users⟩ := .intro rfl hholds hunique
    exact List.forall_mem_cons.mpr ⟨horders, List.forall_mem_singleton.mpr husers⟩

theorem usersOnly_valid_nil : (usersOnly []).Valid :=
  usersOnly_valid (fun _ h => nomatch h) Table.unique_nil

theorem usersOnly_valid_one : (usersOnly [[.integer 1]]).Valid := by
  refine usersOnly_valid (fun row hrow => ?_) fun _ _ => List.pairwise_singleton _ _
  cases List.mem_singleton.mp hrow
  exact Table.normalizeRow_eq_self.mp rfl

/-- `SELECT [column] FROM users WHERE EXISTS (SELECT [inner] FROM orders)` -/
def usersWithOrders (column inner : String) : Statement :=
  .select { Select.allWhere "users" (some (.exists
    { Select.allWhere "orders" none with columns := [⟨.column none inner, none⟩] })) with
      columns := [⟨.column none column, none⟩] }

/-- The column of the query itself is missed with or without users. -/
theorem usersWithOrders_unknown_name :
    (usersWithOrders "name" "id").attempt ⟨.postgreSql, 16⟩ (usersOnly [[.integer 1]]) =
        .error (.schema (.unknownColumn "name")) ∧
      ∃ e, (usersWithOrders "name" "id").attempt ⟨.postgreSql, 16⟩ (usersOnly []) = .error e := by
  have hfails : (usersWithOrders "name" "id").attempt ⟨.postgreSql, 16⟩
      (usersOnly [[.integer 1]]) = .error (.schema (.unknownColumn "name")) := by rfl
  have hnamed : (usersWithOrders "name" "id").RestNamed ⟨.postgreSql, 16⟩
      (usersOnly [[.integer 1]]).emptied := by
    refine ⟨trivial, fun ctes hctes => ?_⟩
    cases hctes
    exact ⟨fun scope hscope => ⟨.ok _, ⟨fun _ _ => trivial, trivial⟩⟩, trivial⟩
  exact ⟨hfails, Statement.schema_failure_everywhere usersOnly_valid_one usersOnly_valid_nil rfl
    (usersWithOrders "name" "id") (fun _ => hnamed) hfails⟩

/-- That of the subquery is missed only if there are users. -/
theorem usersWithOrders_unknown_total :
    (usersOnly [[.integer 1]]).Valid ∧ (usersOnly []).Valid ∧
      (usersOnly [[.integer 1]]).tables = (usersOnly []).tables ∧
      (usersWithOrders "id" "total").attempt ⟨.postgreSql, 16⟩ (usersOnly [[.integer 1]]) =
        .error (.schema (.unknownColumn "total")) ∧
      (usersWithOrders "id" "total").attempt ⟨.postgreSql, 16⟩ (usersOnly []) = .ok () :=
  ⟨usersOnly_valid_one, usersOnly_valid_nil, rfl, by rfl, by rfl⟩

end NameFailures

end DialectDb
