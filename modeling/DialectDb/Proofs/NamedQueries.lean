/-
A named query hides the table of its name. All that a query reads goes
through the relations that its context gives to the names of its tables
(`Context.AgreesOn`), in its FROM clause, in the branches of UNION and in
subqueries of any depth. Where a named query has that name, the context
does not look for a table.

A named query's name hides names that are the same up to ASCII letter
case, whereas the store knows a table under any letter case. A table's
name that the store takes for the named query's must therefore be one
that is hidden.
-/
import DialectDb.Proofs.Constructs
import DialectDb.Proofs.Unions
import DialectDb.Proofs.Where

namespace DialectDb

-- ========================================================== agreement

/-- Contexts that give the same relations to the tables of some
queries. -/
structure Context.AgreesOn (queries : List Select) (c c' : Context) : Prop where
  outer : c.outer = c'.outer
  relation : ∀ q ∈ queries, ∀ t ∈ q.tables, c.relation t.name = c'.relation t.name

namespace Context.AgreesOn

variable {c c' : Context} {queries : List Select}

theorem mono {fewer : List Select} (h : AgreesOn queries c c') (hsub : ∀ q ∈ fewer, q ∈ queries) :
    AgreesOn fewer c c' :=
  ⟨h.outer, fun q hq => h.relation q (hsub q hq)⟩

theorem left {more : List Select} (h : AgreesOn (queries ++ more) c c') :
    AgreesOn queries c c' :=
  h.mono fun _ => List.mem_append_left _

theorem right {more : List Select} (h : AgreesOn (more ++ queries) c c') :
    AgreesOn queries c c' :=
  h.mono fun _ => List.mem_append_right _

/-- The rows around a subquery have nothing to do with tables. -/
theorem within (h : AgreesOn queries c c') (outer : List Frame) :
    AgreesOn queries { c with outer } { c' with outer } :=
  ⟨rfl, h.relation⟩

end Context.AgreesOn

theorem Source.ofClause_agrees {c c' : Context} {q : Select} (h : c.AgreesOn [q] c') :
    ofClause c q.source q.joins = ofClause c' q.source q.joins := by
  have hrelation := h.relation q (List.mem_singleton_self q)
  have hfirst : first c q.source = first c' q.source := by
    cases hsource : q.source with
    | none => rw [first, first, h.outer]
    | some t => rw [first, first, h.outer, hrelation t (by simp [Select.tables, hsource])]
  have hjoins : ∀ joins : List Join, (∀ j ∈ joins, j ∈ q.joins) → ∀ source,
      joins.foldlM (join c) source = joins.foldlM (join c') source := by
    intro joins hjoins
    induction joins with
    | nil => exact fun _ => rfl
    | cons j rest ih =>
        intro source
        obtain ⟨hj, hrest⟩ := List.forall_mem_cons.mp hjoins
        have hmem : j.table ∈ q.tables :=
          List.mem_append_right _ (List.mem_map_of_mem hj)
        have hjoin : join c source j = join c' source j := by
          rw [join, join, hrelation j.table hmem]
        rw [List.foldlM_cons, List.foldlM_cons, hjoin]
        exact bind_congr (ih hrest)
  unfold ofClause
  rw [hfirst]
  exact bind_congr (hjoins q.joins fun _ h => h)

theorem Select.assemble_agrees {c c' : Context} {q : Select} (h : c.AgreesOn [q] c')
    (condition : Option Condition) (branches : List (Bool × (Unit → Result Answer))) :
    q.assemble c condition branches = q.assemble c' condition branches := by
  have hcore (orderBy : List SortKey) :
      q.coreAnswer c condition orderBy = q.coreAnswer c' condition orderBy := by
    rw [coreAnswer, coreAnswer, Source.ofClause_agrees h]
  unfold assemble
  simp only [hcore]

/-- The parts of a query that are evaluated in its context. -/
theorem Context.AgreesOn.parts {c c' : Context} {q : Select} (h : c.AgreesOn q.queries c') :
    c.AgreesOn [q] c' ∧ c.AgreesOn (Expr.queriesOfOption q.predicate) c' ∧
      c.AgreesOn (UnionBranch.queriesOfList q.unions) c' := by
  cases q
  refine ⟨h.mono fun _ hq => ?_, h.mono fun _ hq => ?_, h.mono fun _ hq => ?_⟩
  · rw [List.mem_singleton.mp hq]
    exact List.mem_cons_self
  · refine List.mem_cons_of_mem _ (List.mem_flatten_of_mem ?_ hq)
    simp
  · refine List.mem_cons_of_mem _ (List.mem_flatten_of_mem ?_ hq)
    simp

mutual

theorem Expr.expand_agrees : ∀ (e : Expr) {c c' : Context}, c.AgreesOn e.queries c' →
    e.expand c = e.expand c'
  | .exists q, _, _, h => by
      simp only [Expr.expand, Select.answer_agrees q h]
  | .inQuery e q, _, _, h => by
      simp only [Expr.expand, Select.answer_agrees q h.right, Expr.expand_agrees e h.left]
  | .call f arguments, _, _, h => by
      simp only [Expr.expand, Expr.expandList_agrees arguments h]
  | .unary op e, c, c', h => by
      have he : c.AgreesOn e.queries c' := h
      simp only [Expr.expand, Expr.expand_agrees e he]
  | .binary op l r, _, _, h => by
      simp only [Expr.expand, Expr.expand_agrees l h.left, Expr.expand_agrees r h.right]
  | .inList e items, _, _, h => by
      simp only [Expr.expand, Expr.expand_agrees e h.left, Expr.expandList_agrees items h.right]
  | .all, _, _, _ => rfl
  | .column _ _, _, _, _ => rfl
  | .literal _, _, _, _ => rfl
  | .parameter _, _, _, _ => rfl
  | .excluded _, _, _, _ => rfl
termination_by structural e => e

theorem Expr.expandList_agrees : ∀ (es : List Expr) {c c' : Context},
    c.AgreesOn (Expr.queriesOfList es) c' → Expr.expandList c es = Expr.expandList c' es
  | [], _, _, _ => rfl
  | e :: es, _, _, h => by
      simp only [Expr.expandList, Expr.expand_agrees e h.left, Expr.expandList_agrees es h.right]
termination_by structural es => es

theorem Expr.condition?_agrees : ∀ (e? : Option Expr) {c c' : Context},
    c.AgreesOn (Expr.queriesOfOption e?) c' → Expr.condition? c e? = Expr.condition? c' e?
  | none, _, _, _ => rfl
  | some e, c, c', h => by
      have hexpand (outer : List Frame) :
          e.expand { c with outer } = e.expand { c' with outer } :=
        Expr.expand_agrees e (h.within outer)
      simp only [Expr.condition?, hexpand]
termination_by structural e? => e?

/-- A query reads nothing but the relations of its tables' names and of
those in the queries within it. -/
theorem Select.answer_agrees : ∀ (q : Select) {c c' : Context}, c.AgreesOn q.queries c' →
    q.answer c = q.answer c'
  | ⟨ctes, distinct, columns, source, joins, predicate, groupBy, having, unions, orderBy, offset,
      limit, hints⟩, c, c', h => by
      obtain ⟨hown, hpredicate, hunions⟩ := h.parts
      simp only [Select.answer, Expr.condition?_agrees predicate hpredicate,
        UnionBranch.answers_agree unions hunions, Select.assemble_agrees hown]
termination_by structural q => q

theorem UnionBranch.answers_agree : ∀ (branches : List UnionBranch) {c c' : Context},
    c.AgreesOn (UnionBranch.queriesOfList branches) c' →
      UnionBranch.answers c branches = UnionBranch.answers c' branches
  | [], _, _, _ => rfl
  | ⟨all, select⟩ :: rest, _, _, h => by
      simp only [UnionBranch.answers, Select.answer_agrees select h.left,
        UnionBranch.answers_agree rest h.right]
termination_by structural branches => branches

end

-- ============================================================= hiding

/-- The names of the tables that a query reads, with those of the queries
within it. -/
def Select.tableNames (q : Select) : List String :=
  q.queries.flatMap fun p => p.tables.map (·.name)

/-- Stores that differ at most in whether there is a table of some name,
and in what its columns and rows are. -/
def Store.SameApartFrom (name : String) (s s' : Store) : Prop :=
  ∀ other, keyOf other ≠ keyOf name → s.find? other = s'.find? other

/-- If a table's name could mean the table of another name, there is a
named query that hides it. -/
def Hidden (name : String) (ctes : List (String × Relation)) (q : Select) : Prop :=
  ∀ other ∈ q.tableNames, Store.keyOf other = Store.keyOf name →
    ∃ entry ∈ ctes, Text.sameName entry.1 other = true

theorem Hidden.mono {name : String} {ctes more : List (String × Relation)} {q : Select}
    (h : Hidden name ctes q) (hsub : ∀ entry ∈ ctes, entry ∈ more) : Hidden name more q := by
  intro other hother hkey
  obtain ⟨entry, hentry, hsame⟩ := h other hother hkey
  exact ⟨entry, hsub entry hentry, hsame⟩

variable {version : DialectVersion} {name : String} {s s' : Store}

/-- A table that is hidden is not looked for. -/
theorem Select.answer_hidden (hstores : s.SameApartFrom name s') {ctes : List (String × Relation)}
    {q : Select} (h : Hidden name ctes q) :
    q.answer { store := s, ctes } = q.answer { store := s', ctes } := by
  refine Select.answer_agrees q ⟨rfl, fun p hp t ht => ?_⟩
  have hmem : t.name ∈ q.tableNames :=
    List.mem_flatMap.mpr ⟨p, hp, List.mem_map_of_mem ht⟩
  unfold Context.relation
  dsimp only
  cases hfind : ctes.reverse.find? fun x => Text.sameName x.1 t.name with
  | some entry => rfl
  | none =>
      have hkey : Store.keyOf t.name ≠ Store.keyOf name := by
        intro hkey
        obtain ⟨entry, hentry, hsame⟩ := h t.name hmem hkey
        exact List.find?_eq_none.mp hfind entry (List.mem_reverse.mpr hentry) hsame
      rw [hstores t.name hkey]

theorem Cte.evaluate_hidden (hstores : s.SameApartFrom name s') {found : List (String × Relation)}
    {cte : Cte} (h : Hidden name found cte.body) :
    cte.evaluate version s found = cte.evaluate version s' found := by
  unfold evaluate
  rw [Select.answer_hidden hstores h]

/-- A named query is found behind those before it. -/
theorem Cte.evaluate_eq_ok {cte : Cte} {found after : List (String × Relation)}
    (h : cte.evaluate version s found = .ok after) :
    ∃ relation, after = found ++ [(cte.name, relation)] := by
  unfold evaluate at h
  split at h
  · cases h
  · obtain ⟨answer, -, h⟩ := Result.bind_eq_ok.mp h
    obtain ⟨relation, -, h⟩ := Result.bind_eq_ok.mp h
    exact ⟨relation, (Result.pure_eq_ok.mp h).symm⟩

theorem Cte.evaluateList_hidden (hstores : s.SameApartFrom name s') {ctes : List Cte}
    {found : List (String × Relation)} (h : ∀ cte ∈ ctes, Hidden name found cte.body) :
    ctes.foldlM (Cte.evaluate version s) found = ctes.foldlM (Cte.evaluate version s') found := by
  induction ctes generalizing found with
  | nil => rfl
  | cons cte rest ih =>
      obtain ⟨hcte, hrest⟩ := List.forall_mem_cons.mp h
      rw [List.foldlM_cons, List.foldlM_cons, Cte.evaluate_hidden hstores hcte]
      refine Result.bind_congr_ok fun after hafter => ih fun other hother => ?_
      obtain ⟨relation, rfl⟩ := Cte.evaluate_eq_ok hafter
      exact (hrest other hother).mono fun _ => List.mem_append_left _

/-- Named queries stay found. -/
theorem Cte.mem_of_evaluateList {ctes : List Cte} {found after : List (String × Relation)}
    (h : ctes.foldlM (Cte.evaluate version s) found = .ok after) :
    ∀ entry ∈ found, entry ∈ after := by
  intro entry hentry
  refine Result.foldlM_keeps (I := (entry ∈ ·)) (fun cte _ mid mid' hmid hstep => ?_) hentry h
  obtain ⟨relation, rfl⟩ := Cte.evaluate_eq_ok hstep
  exact List.mem_append_left _ hmid

/-- What the queries of a WITH clause read, the whole query reads. -/
theorem Select.tableNames_of_cte {q : Select} {cte : Cte} (h : cte ∈ q.ctes) :
    ∀ other ∈ cte.body.tableNames, other ∈ q.tableNames := by
  intro other hother
  obtain ⟨p, hp, htable⟩ := List.mem_flatMap.mp hother
  refine List.mem_flatMap.mpr ⟨p, ?_, htable⟩
  cases q
  refine List.mem_cons_of_mem _ (List.mem_flatten_of_mem List.mem_cons_self ?_)
  rw [Cte.queriesOfList_eq]
  exact List.mem_flatMap.mpr ⟨cte, h, hp⟩

theorem Select.tableNames_withoutCtes (q : Select) :
    ∀ other ∈ ({ q with ctes := [] } : Select).tableNames, other ∈ q.tableNames := by
  intro other hother
  obtain ⟨p, hp, htable⟩ := List.mem_flatMap.mp hother
  cases q
  rcases List.mem_cons.mp hp with rfl | hp
  · exact List.mem_flatMap.mpr ⟨_, List.mem_cons_self, htable⟩
  · refine List.mem_flatMap.mpr ⟨p, List.mem_cons_of_mem _ ?_, htable⟩
    rw [List.flatten_cons] at hp ⊢
    exact List.mem_append_right _ ((List.mem_append.mp hp).resolve_left List.not_mem_nil)

/-- A named query hides the table of its name. -/
theorem Select.evaluate_hidden {q : Select} {before after : List Cte} {cte : Cte}
    (hctes : q.ctes = before ++ cte :: after)
    (hunread : ∀ c ∈ before ++ [cte], ∀ other ∈ c.body.tableNames,
      Store.keyOf other ≠ Store.keyOf cte.name)
    (hcase : ∀ other ∈ q.tableNames, Store.keyOf other = Store.keyOf cte.name →
      Text.sameName cte.name other = true)
    (hstores : s.SameApartFrom cte.name s') :
    q.evaluate version s = q.evaluate version s' := by
  -- no query up to the named one could read the table
  have hbefore : ∀ c ∈ before ++ [cte], ∀ found, Hidden cte.name found c.body :=
    fun c hc found other hother hkey => absurd hkey (hunread c hc other hother)
  -- and to those behind it the named query hides the table
  have hhidden {found : List (String × Relation)}
      (hfound : ∃ relation, (cte.name, relation) ∈ found) {p : Select}
      (hp : ∀ other ∈ p.tableNames, other ∈ q.tableNames) : Hidden cte.name found p := by
    intro other hother hkey
    obtain ⟨relation, hentry⟩ := hfound
    exact ⟨_, hentry, hcase other (hp other hother) hkey⟩
  unfold evaluate
  rw [hctes, List.foldlM_append, List.foldlM_append, bind_assoc, bind_assoc,
    Cte.evaluateList_hidden hstores fun c hc => hbefore c (List.mem_append_left _ hc) _]
  refine bind_congr fun found => ?_
  rw [List.foldlM_cons, List.foldlM_cons, bind_assoc, bind_assoc,
    Cte.evaluate_hidden hstores (hbefore cte (by simp) _)]
  refine Result.bind_congr_ok fun mid hmid => ?_
  obtain ⟨relation, rfl⟩ := Cte.evaluate_eq_ok hmid
  have hentry : (cte.name, relation) ∈ found ++ [(cte.name, relation)] := by simp
  rw [Cte.evaluateList_hidden hstores fun c hc =>
    hhidden ⟨relation, hentry⟩ (Select.tableNames_of_cte (by simp [hctes, hc]))]
  refine Result.bind_congr_ok fun ctes hfound => ?_
  have hstays := Cte.mem_of_evaluateList hfound _ hentry
  exact Select.answer_hidden hstores (hhidden ⟨relation, hstays⟩ q.tableNames_withoutCtes)

/-- A named query hides the table of its name from all that comes behind
it. If neither it nor a query before it reads that table, then whether
there is such a table makes no difference, whatever its columns and rows
are: the columns, the rows or the failure are the same. Names of tables
that mean this one have to be its name up to ASCII letter case. -/
theorem Statement.named_query_hides_table {q : Select} {before after : List Cte} {cte : Cte}
    (hctes : q.ctes = before ++ cte :: after)
    (hunread : ∀ c ∈ before ++ [cte], ∀ other ∈ c.body.tableNames,
      Store.keyOf other ≠ Store.keyOf cte.name)
    (hcase : ∀ other ∈ q.tableNames, Store.keyOf other = Store.keyOf cte.name →
      Text.sameName cte.name other = true)
    (hstores : s.SameApartFrom cte.name s') :
    (((select q).execute version).perform s).1 = (((select q).execute version).perform s').1 := by
  have hread : q.evaluate version s = q.evaluate version s' :=
    Select.evaluate_hidden hctes hunread hcase hstores
  simp only [execute, Action.perform_get_bind, Action.perform_lift_bind_fst]
  rw [hread]
  rfl

/-- The letter case of the Kelvin sign is no matter of ASCII: the store
takes it for a `k`, and a named query `k` does not hide that table. -/
example : Store.keyOf "\u212a" = Store.keyOf "k" ∧ Text.sameName "k" "\u212a" = false := by
  decide +kernel

namespace NamedQueries

/-- A store with no table but `t`, of one column. -/
def onlyTable (rows : List Row) : Store :=
  { entries := [⟨"t", ⟨⟨"t", [⟨"b", .integer, false, true, some .null, false⟩]⟩, rows⟩⟩] }

/-- `WITH t AS (SELECT 1 AS a), u AS (SELECT * FROM T) SELECT T.a FROM T
CROSS JOIN u WHERE EXISTS (SELECT * FROM t) UNION ALL SELECT * FROM T` -/
def numberHidesTable : Select :=
  { Select.allWhere "T" (some (.exists (Select.allWhere "t" none))) with
    columns := [⟨.column (some "T") "a", none⟩]
    ctes := [
      ⟨"t", [], false, none,
        { Select.allWhere "" none with
          columns := [⟨.literal (.integer 1), some "a"⟩], source := none }⟩,
      ⟨"u", [], false, none, Select.allWhere "T" none⟩]
    joins := [⟨.cross, ⟨"u", none, []⟩, none⟩]
    unions := [⟨true, Select.allWhere "T" none⟩] }

theorem onlyTable_sameApartFrom (rows : List Row) :
    Store.SameApartFrom "t" {} (onlyTable rows) := by
  intro other hother
  have hkey : ¬"t" = Store.keyOf other := by
    have ht : Store.keyOf "t" = "t" := by decide +kernel
    exact fun heq => hother (heq.symm.trans ht.symm)
  simp [Store.find?, onlyTable, hkey]

/-- It gives the same over an empty store as over one with a table `t`:
the number, once for each branch. -/
theorem numberHidesTable_same :
    let t : Cte := ⟨"t", [], false, none,
      { Select.allWhere "" none with
        columns := [⟨.literal (.integer 1), some "a"⟩], source := none }⟩
    let u : Cte := ⟨"u", [], false, none, Select.allWhere "T" none⟩
    numberHidesTable.ctes = [] ++ t :: [u] ∧
      (∀ c ∈ [] ++ [t], ∀ other ∈ c.body.tableNames, Store.keyOf other ≠ Store.keyOf t.name) ∧
      (∀ other ∈ numberHidesTable.tableNames, Store.keyOf other = Store.keyOf t.name →
        Text.sameName t.name other = true) ∧
      Store.SameApartFrom t.name {} (onlyTable [[.integer 2]]) ∧
      (((Statement.select numberHidesTable).execute ⟨.postgreSql, 16⟩).perform {}).1 =
        (((Statement.select numberHidesTable).execute ⟨.postgreSql, 16⟩).perform
          (onlyTable [[.integer 2]])).1 ∧
      ((((Statement.select numberHidesTable).execute ⟨.postgreSql, 16⟩).perform
        (onlyTable [[.integer 2]])).1 >>= Outcome.table) =
          .ok (["a"], [[.integer 1], [.integer 1]]) := by
  intro t u
  have hunread : ∀ c ∈ [] ++ [t], ∀ other ∈ c.body.tableNames,
      Store.keyOf other ≠ Store.keyOf t.name := by decide +kernel
  have hcase : ∀ other ∈ numberHidesTable.tableNames, Store.keyOf other = Store.keyOf t.name →
      Text.sameName t.name other = true := by decide +kernel
  have hstores : Store.SameApartFrom t.name {} (onlyTable [[.integer 2]]) :=
    onlyTable_sameApartFrom [[.integer 2]]
  have hanswer : (((Statement.select numberHidesTable).execute ⟨.postgreSql, 16⟩).perform
      (onlyTable [[.integer 2]])).1 = .ok (.answer ⟨["a"],
        (Rows.ofList (sortRows [] [[.integer 1], [.integer 1]])).drop 0⟩) := by rfl
  refine ⟨rfl, hunread, hcase, hstores,
    Statement.named_query_hides_table rfl hunread hcase hstores, ?_⟩
  rw [hanswer, Select.sortRows_nil]
  rfl

end NamedQueries

end DialectDb
