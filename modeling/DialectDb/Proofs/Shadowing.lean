/-
Inner names shadow outer ones: a reference that a query's own columns
resolve does not depend on the rows around the query. In WHERE and in
the subqueries there, in GROUP BY and in the arguments of aggregates
this is so always. The select list, HAVING and ORDER BY of a grouped
query are resolved in the columns after grouping, and these know an own
column only if it is grouped by. Any other is left open there, and takes
its value from the rows around, if they have a column of that name.

So a grouped query shadows iff each own column that it refers to outside
of grouping expressions and aggregate calls is grouped by.
-/
import DialectDb.Proofs.Enclosing

namespace DialectDb

variable {table : Option String} {name : String}

-- ======================================================= independence

/-- A reference resolves to the same formula whatever rows are around. -/
def Scope.Independent (s : Scope) (table : Option String) (name : String) : Prop :=
  ∀ outer, (s.within outer).resolve (.column table name) = s.resolve (.column table name)

def Layout.LeavesOpen (layout : Layout) (table : Option String) (name : String) : Prop :=
  layout.hasSlot (.column table name) = false ∧ layout.find? table name = .ok none

namespace Scope

variable {s : Scope}

/-- What is left open is looked up around. -/
theorem resolve_of_leavesOpen (h : s.layout.LeavesOpen table name) :
    s.resolve (.column table name) = .const <$> Frame.lookup table name s.outer := by
  obtain ⟨hslot, hfind⟩ := h
  rw [Layout.hasSlot, Option.isSome_eq_false_iff, Option.isNone_iff_eq_none] at hslot
  simp only [resolve, hslot, resolveColumn, hfind]
  rfl

theorem resolve_own (hslots : s.layout.slots = []) {index : Nat}
    (hown : s.layout.find? table name = .ok (some index)) :
    s.resolve (.column table name) = .ok (.column index) := by
  simp only [resolve, Layout.slot?_eq_none hslots, resolveColumn, hown]
  rfl

/-- Nothing else depends on what is around. -/
theorem independent_iff : s.Independent table name ↔ ¬ s.layout.LeavesOpen table name := by
  constructor
  · intro hindependent hopen
    -- a row around that has a place for this reference, and no row at all
    let frame : Frame := ⟨{ labels := [], slots := [⟨.column table name, 0⟩] }, [.null]⟩
    have hframe : Frame.lookup table name [frame] = .ok .null := by
      simp [Frame.lookup, frame, Layout.slot?, Formula.eval]
    have hsome := resolve_of_leavesOpen (s := s.within [frame]) hopen
    have hnone := resolve_of_leavesOpen (s := s.within []) hopen
    rw [hindependent, within_outer, hframe] at hsome
    rw [hindependent, hsome] at hnone
    cases hnone
  · intro hclosed outer
    refine resolve_within s _ fun table' name' hmem hfind => ?_
    obtain ⟨hnode, hslot⟩ := Expr.node_of_mem_references hmem
    cases List.mem_singleton.mp hnode
    exact absurd ⟨hslot, hfind⟩ hclosed

end Scope

-- ============================================================ shadowing

namespace Select

/-- Inner names shadow outer ones, given the scopes before and after
grouping: references that own columns resolve do not depend on the rows
around. -/
structure Shadows (q : Select) (scope after : Scope) : Prop where
  /-- In WHERE, GROUP BY and the arguments of aggregates. -/
  rows : ∀ table name index, scope.layout.find? table name = .ok (some index) →
    scope.Independent table name
  /-- In the subqueries of WHERE. -/
  subqueries : ∀ table name index, scope.layout.find? table name = .ok (some index) →
    ∀ row outer, Frame.lookup table name (⟨scope.layout, row⟩ :: outer) =
      Frame.lookup table name (⟨scope.layout, row⟩ :: scope.outer)
  /-- In the select list, HAVING and ORDER BY, where whole expressions
  have places. -/
  clauses : ∀ e ∈ q.clauseExprs q.ownOrder, ∀ table name,
    (table, name) ∈ e.references after.layout.hasSlot →
    ∀ index, scope.layout.find? table name = .ok (some index) → after.Independent table name

/-- The own columns that a grouped query refers to in its select list,
HAVING and ORDER BY, outside of grouping expressions and aggregate
calls, are grouped by. -/
def GroupsOwnColumns (q : Select) (scope : Scope) : Prop :=
  q.isGrouped q.ownOrder = true → ∀ e ∈ q.clauseExprs q.ownOrder, ∀ table name,
    (table, name) ∈ e.references (fun e => decide (e ∈ q.groupBy) || e.isAggregate) →
    ∀ index, scope.layout.find? table name = .ok (some index) →
      ∃ key ∈ q.groupBy, scope.resolve key = .ok (.column index)

variable {q : Select} {context : Context} {source : Source} {scope after : Scope}

/-- Grouped, the scope of the later clauses is that of the grouping. -/
theorem grouping_of_clauseScope (hgrouped : q.isGrouped q.ownOrder = true)
    (hafter : q.clauseScope q.ownOrder scope = .ok after) :
    ∃ g, scope.grouping q.groupBy (q.groupedExprs q.ownOrder) = .ok (after, g) := by
  rw [clauseScope, if_pos hgrouped] at hafter
  obtain ⟨⟨_, g⟩, hgrouping, rfl⟩ := Result.map_eq_ok.mp hafter
  exact ⟨g, hgrouping⟩

/-- Grouped, the parts with places are the grouping expressions and the
aggregate calls. -/
theorem references_after (hgrouped : q.isGrouped q.ownOrder = true)
    (hafter : q.clauseScope q.ownOrder scope = .ok after) {e : Expr}
    (he : e ∈ q.clauseExprs q.ownOrder) :
    e.references after.layout.hasSlot =
      e.references (fun e => decide (e ∈ q.groupBy) || e.isAggregate) := by
  obtain ⟨g, hgrouping⟩ := grouping_of_clauseScope hgrouped hafter
  refine Expr.references_congr fun node hnode => ?_
  have hcall : node ∈ aggregateCalls (q.groupedExprs q.ownOrder) ↔ node.isAggregate = true := by
    rw [aggregateCalls, List.mem_eraseDups, List.mem_filter, List.mem_flatMap]
    exact and_iff_right ⟨e, mem_groupedExprs he, hnode⟩
  simp only [Scope.grouping_hasSlot hgrouping, hcall, Bool.decide_eq_true]

/-- An own column is independent of the rows around in the later clauses
iff it is grouped by. -/
theorem independent_after_iff (hgrouped : q.isGrouped q.ownOrder = true)
    (hafter : q.clauseScope q.ownOrder scope = .ok after) {e : Expr}
    (hmem : (table, name) ∈ e.references after.layout.hasSlot) {index : Nat}
    (hown : scope.layout.find? table name = .ok (some index)) :
    after.Independent table name ↔ ∃ key ∈ q.groupBy, scope.resolve key = .ok (.column index) := by
  obtain ⟨g, hgrouping⟩ := grouping_of_clauseScope hgrouped hafter
  have hslot := (Expr.node_of_mem_references hmem).2
  rw [← Scope.mem_grouping_keys hgrouping, Scope.independent_iff, Layout.LeavesOpen,
    Scope.grouping_find? hgrouping hown, not_and, Classical.not_not]
  exact forall_prop_of_true hslot

theorem shadows_iff_groupsOwnColumns (hafter : q.clauseScope q.ownOrder scope = .ok after) :
    q.Shadows scope after ↔ q.GroupsOwnColumns scope := by
  have hrows : ∀ table name index, scope.layout.find? table name = .ok (some index) →
      scope.Independent table name := by
    intro table name index hown
    rw [Scope.independent_iff]
    rintro ⟨-, hfind⟩
    rw [hown] at hfind
    cases hfind
  constructor
  · intro hshadows hgrouped e he table name hmem index hown
    rw [← references_after hgrouped hafter he] at hmem
    exact (independent_after_iff hgrouped hafter hmem hown).mp
      (hshadows.clauses e he table name hmem index hown)
  · intro hgroups
    refine ⟨hrows, ?_, ?_⟩
    · intro table name index hown row outer
      exact Frame.lookup_own hown row outer scope.outer
    · intro e he table name hmem index hown
      by_cases hgrouped : q.isGrouped q.ownOrder = true
      · rw [independent_after_iff hgrouped hafter hmem hown]
        rw [references_after hgrouped hafter he] at hmem
        exact hgroups hgrouped e he table name hmem index hown
      · rw [clauseScope, if_neg hgrouped] at hafter
        cases hafter
        exact hrows table name index hown

theorem answers_congr {unions : List UnionBranch} {outer : List Frame}
    (h : ∀ branch ∈ unions,
      branch.select.answer (context.within outer) = branch.select.answer context) :
    UnionBranch.answers (context.within outer) unions = UnionBranch.answers context unions := by
  induction unions with
  | nil => rfl
  | cons branch rest ih =>
      have hhead := h branch List.mem_cons_self
      have htail := ih fun branch hbranch => h branch (List.mem_cons_of_mem _ hbranch)
      obtain ⟨all, select⟩ := branch
      simp only [UnionBranch.answers, hhead, htail]

/-- Such a query gives the same within other rows, as long as they agree
on what it refers to and its own columns do not resolve. Its FROM clause
has to give the same rows, and its UNION branches the same answers. -/
theorem answer_within_of_groupsOwnColumns
    (hsource : Source.ofClause context q.source q.joins = .ok source)
    (hgroups : q.GroupsOwnColumns source.scope) {outer : List Frame}
    (hagree : ∀ table name, (table, name) ∈ q.mentions →
      (∀ index, source.scope.layout.find? table name ≠ .ok (some index)) →
      Frame.lookup table name outer = Frame.lookup table name context.outer)
    (hrows : Source.ofClause (context.within outer) q.source q.joins = .ok (source.within outer))
    (hunions : ∀ branch ∈ q.unions,
      branch.select.answer (context.within outer) = branch.select.answer context) :
    q.answer (context.within outer) = q.answer context := by
  have houter : source.scope.outer = context.outer := (Source.ofClause_plain hsource).1
  have hbeyond : Frame.AlikeBeyond source.scope.layout q.mentions outer source.scope.outer := by
    intro table name hmem hopen
    rw [houter]
    exact hagree table name hmem fun index hown => nomatch hopen.symm.trans hown
  have hcondition : ∀ c ∈ Expr.condition? context q.predicate, c.RefersTo q.mentions :=
    fun c hc => (Expr.condition?_refersTo _ _ c hc).mono q.predicate_subset_mentions
  have hkeys : ∀ e ∈ q.groupBy, e.columns ⊆ q.mentions :=
    fun e he => plain_subset_mentions (mem_plainExprs_of_key he)
  have hes : ∀ e ∈ q.groupedExprs q.ownOrder, e.columns ⊆ q.mentions :=
    fun e he => plain_subset_mentions (mem_plainExprs_of_grouped he)
  refine answer_within_of_parts ?_ (answers_congr hunions)
  rw [coreAnswer, coreAnswer, hrows, hsource]
  show q.answerFrom _ _ (source.within outer) = q.answerFrom _ _ source
  refine answerFrom_within hcondition hkeys hes hbeyond fun after hafter e he => ?_
  -- what the later clauses leave open is no own column, or it would not
  -- be independent
  have hshadows := (shadows_iff_groupsOwnColumns hafter).mpr hgroups
  refine Scope.resolve_within after e fun table name hmem hopen => ?_
  rw [clauseScope_outer hafter, houter]
  refine hagree table name ?_ fun index hown => ?_
  · exact hes e (mem_groupedExprs he) (e.references_subset_columns _ hmem)
  · have hindependent := hshadows.clauses e he table name hmem index hown
    exact Scope.independent_iff.mp hindependent ⟨(Expr.node_of_mem_references hmem).2, hopen⟩

theorem resolve_after_of_ungrouped (hslots : scope.layout.slots = [])
    (hafter : q.clauseScope q.ownOrder scope = .ok after)
    (hgrouped : q.isGrouped q.ownOrder = true) {index : Nat}
    (hown : scope.layout.find? table name = .ok (some index))
    (hkeys : ∀ key ∈ q.groupBy, scope.resolve key ≠ .ok (.column index)) :
    after.resolve (.column table name) = .const <$> Frame.lookup table name scope.outer := by
  obtain ⟨g, hgrouping⟩ := grouping_of_clauseScope hgrouped hafter
  have hslot : after.layout.hasSlot (.column table name) = false := by
    rw [Scope.grouping_hasSlot hgrouping, Bool.or_eq_false_iff, decide_eq_false_iff_not,
      decide_eq_false_iff_not]
    constructor
    · intro hkey
      exact hkeys _ hkey (Scope.resolve_own hslots hown)
    · intro hcall
      rw [aggregateCalls, List.mem_eraseDups, List.mem_filter] at hcall
      exact Bool.false_ne_true hcall.2
  have hopen : after.layout.find? table name = .ok none := by
    rw [Scope.grouping_find? hgrouping hown, Scope.mem_grouping_keys hgrouping]
    rintro ⟨key, hkey, hresolve⟩
    exact hkeys key hkey hresolve
  rw [Scope.resolve_of_leavesOpen ⟨hslot, hopen⟩, clauseScope_outer hafter]

/-- Inner names shadow outer ones in a query iff, being grouped, it groups
by the own columns that it refers to. Then nothing of the rows around
matters but what own columns do not resolve. Any other own column takes
its value from the rows around in the select list, HAVING and ORDER BY,
and is unknown only if they do not have it. -/
theorem ownColumns_shadow_iff
    (hsource : Source.ofClause context q.source q.joins = .ok source) :
    (∀ after, q.clauseScope q.ownOrder source.scope = .ok after →
      (q.Shadows source.scope after ↔ q.GroupsOwnColumns source.scope)) ∧
    (q.GroupsOwnColumns source.scope → ∀ outer,
      (∀ table name, (table, name) ∈ q.mentions →
        (∀ index, source.scope.layout.find? table name ≠ .ok (some index)) →
        Frame.lookup table name outer = Frame.lookup table name context.outer) →
      Source.ofClause (context.within outer) q.source q.joins = .ok (source.within outer) →
      (∀ branch ∈ q.unions,
        branch.select.answer (context.within outer) = branch.select.answer context) →
      q.answer (context.within outer) = q.answer context) ∧
    (q.isGrouped q.ownOrder = true → ∀ after,
      q.clauseScope q.ownOrder source.scope = .ok after → ∀ table name index,
      source.scope.layout.find? table name = .ok (some index) →
      (∀ key ∈ q.groupBy, source.scope.resolve key ≠ .ok (.column index)) →
      after.resolve (.column table name) = .const <$> Frame.lookup table name context.outer) := by
  obtain ⟨houter, hslots⟩ := Source.ofClause_plain hsource
  refine ⟨fun after hafter => shadows_iff_groupsOwnColumns hafter, ?_, ?_⟩
  · intro hgroups outer hagree hrows hunions
    exact answer_within_of_groupsOwnColumns hsource hgroups hagree hrows hunions
  · intro hgrouped after hafter table name index hown hkeys
    rw [← houter]
    exact resolve_after_of_ungrouped hslots hafter hgrouped hown hkeys

end Select

namespace Shadowing

/-- `SELECT name FROM orders GROUP BY ...` -/
def orderNamesBy (key : String) : Select where
  ctes := []
  distinct := false
  columns := [⟨.column none "name", none⟩]
  source := some ⟨"orders", none, []⟩
  joins := []
  predicate := none
  groupBy := [.column none key]
  having := none
  unions := []
  orderBy := []
  offset := none
  limit := none
  queryHints := []

/-- `SELECT id FROM users WHERE name IN (SELECT name FROM orders GROUP BY
...)` -/
def usersNamedBy (key : String) : Select where
  ctes := []
  distinct := false
  columns := [⟨.column none "id", none⟩]
  source := some ⟨"users", none, []⟩
  joins := []
  predicate := some (.inQuery (.column none "name") (orderNamesBy key))
  groupBy := []
  having := none
  unions := []
  orderBy := []
  offset := none
  limit := none
  queryHints := []

/-- A user called ann and an order called book. -/
def namesakes : Store where
  entries :=
    [⟨"orders", ⟨"orders", [⟨"id", .integer, true, false, none, false⟩,
        ⟨"user_id", .integer, false, true, some .null, false⟩,
        ⟨"name", .string, false, true, some .null, false⟩]⟩,
      [[.integer 10, .integer 7, .string "book"]]⟩,
    ⟨"users", ⟨"users", [⟨"id", .integer, true, false, none, false⟩,
        ⟨"name", .string, false, true, some .null, false⟩]⟩,
      [[.integer 1, .string "ann"]]⟩]

/-- What the subquery reads for the user. -/
def besideAnn : Context where
  store := namesakes
  outer := [⟨(Scope.ofColumns "users" ["id", "name"]).layout, [.integer 1, .string "ann"]⟩]

/-- Grouped by the name of the order, that is the name which is selected,
whoever it is beside. -/
theorem orderNamesBy_name_shadows : ∃ source after,
    Source.ofClause besideAnn (orderNamesBy "name").source (orderNamesBy "name").joins =
      .ok source ∧
    (orderNamesBy "name").clauseScope (orderNamesBy "name").ownOrder source.scope = .ok after ∧
    (orderNamesBy "name").Shadows source.scope after ∧
    ∀ outer, (orderNamesBy "name").answer (besideAnn.within outer) =
      (orderNamesBy "name").answer besideAnn := by
  obtain ⟨hiff, hsame, -⟩ := @Select.ownColumns_shadow_iff (orderNamesBy "name") besideAnn _ rfl
  have hgroups : ∀ scope, (orderNamesBy "name").GroupsOwnColumns scope := by
    intro scope _ e he table name hmem
    cases List.mem_singleton.mp he
    cases hmem
  refine ⟨_, _, rfl, rfl, (hiff _ rfl).mpr (hgroups _), fun outer => ?_⟩
  refine hsame (hgroups _) outer (fun table name hmem hother => ?_) rfl nofun
  have hname : (table, name) = (none, "name") := by
    rcases List.mem_cons.mp hmem with h | h
    · exact h
    · exact List.mem_singleton.mp h
  cases hname
  exact absurd rfl (hother 2)

/-- Grouped by the user, the name of the order is unknown; but beside a
user it is that of the user, who is then found by it. -/
theorem orderNamesBy_user_leaks :
    (orderNamesBy "user_id").answer { store := namesakes } =
      .error (.schema (.unknownColumn "name")) ∧
    (do (← (usersNamedBy "user_id").answer { store := namesakes }).rows.collect) =
      .ok [[.integer 1]] ∧
    ∃ source after,
      Source.ofClause besideAnn (orderNamesBy "user_id").source (orderNamesBy "user_id").joins =
        .ok source ∧
      (orderNamesBy "user_id").clauseScope (orderNamesBy "user_id").ownOrder source.scope =
        .ok after ∧
      ¬ (orderNamesBy "user_id").Shadows source.scope after := by
  refine ⟨rfl, rfl, _, _, rfl, rfl, fun hshadows => ?_⟩
  have hindependent := hshadows.clauses (.column none "name") List.mem_cons_self none "name"
    List.mem_cons_self 2 rfl
  cases hindependent []

end Shadowing

end DialectDb
