/-
UNION. The rows of a chain of queries are those of its branches, each
read as the query that it is on its own, put together from left to
right.

The tree of a chain is that of its first branch with the others in it,
and so there is one place for a row limit of the first branch and one of
all rows together. With a TOP in the first branch it is the rows of the
whole chain that are limited; a TOP in another branch limits that branch
alone.
-/
import DialectDb.Dialect.Catalog
import DialectDb.Grammar.Query
import DialectDb.Proofs.Answers
import DialectDb.Proofs.Reading

namespace DialectDb

-- ============================================================== chains

/-- A query as it stands between UNIONs: without WITH, ORDER BY and
paging. It may have a TOP. -/
structure Select.IsCore (q : Select) : Prop where
  ctes : q.ctes = []
  unions : q.unions = []
  orderBy : q.orderBy = []
  offset : q.offset = none

/-- A query and the branches that UNION appends. -/
def Select.chain (first : Select) (branches : List UnionBranch) : Select :=
  { first with unions := branches }

def Select.withoutTop (q : Select) : Select :=
  { q with limit := none }

/-- The rows of a branch are put behind those before it, and after a
plain UNION the first of equal rows stays. -/
def UnionBranch.append (rows : List Row) (branch : UnionBranch × List Row) : List Row :=
  if branch.1.all then rows ++ branch.2 else (rows ++ branch.2).eraseDups

/-- On its own a branch gives some rows, with a given number of
columns. -/
def UnionBranch.Gives (version : DialectVersion) (store : Store) (width : Nat)
    (branch : UnionBranch) (rows : List Row) : Prop :=
  ∃ columns, branch.select.readAll version store = .ok (columns, rows) ∧ columns.length = width

/-- The first rows, as many as a limit asks for. -/
def limitRows (limit : Option Nat) (rows : List Row) : List Row :=
  match limit with
  | some n => rows.take n
  | none => rows

variable {version : DialectVersion} {store : Store} {first : Select} {branches : List UnionBranch}

namespace Select

open DialectDb.Parser in
/-- What stands between UNIONs in a text is such a query. -/
theorem yields_core (g : Grammar) : Parser.Yields g.core IsCore := by
  refine yields_bind fun _ => yields_bind fun _ => yields_bind fun distinct => ?_
  refine yields_when <| yields_choose fun limit => ?_
  refine yields_bind fun columns => yields_bind fun tables => ?_
  refine yields_bind fun predicate => yields_bind fun groupBy => yields_bind fun having => ?_
  refine yields_pure ?_
  exact ⟨rfl, rfl, rfl, rfl⟩

theorem answers_cons (context : Context) (branch : UnionBranch) (rest : List UnionBranch) :
    UnionBranch.answers context (branch :: rest) =
      (branch.all, fun _ => branch.select.answer context) :: UnionBranch.answers context rest := by
  cases branch
  rfl

theorem gives_iff {width : Nat} {branch : UnionBranch} (hcore : branch.select.IsCore)
    {piece : List Row} :
    branch.Gives version store width piece ↔
      ∃ answer, branch.select.answer { store } = .ok answer ∧ answer.columns.length = width ∧
        answer.rows.collect = .ok piece := by
  simp only [UnionBranch.Gives, readAll_eq, evaluate_eq_answer hcore.ctes, Result.bind_eq_ok,
    Result.pure_eq_ok, Prod.mk.injEq]
  constructor
  · rintro ⟨columns, ⟨answer, hanswer, rows, hrows, rfl, rfl⟩, hwidth⟩
    exact ⟨answer, hanswer, hwidth, hrows⟩
  · rintro ⟨answer, hanswer, hwidth, hrows⟩
    exact ⟨_, ⟨answer, hanswer, _, hrows, rfl, rfl⟩, hwidth⟩

/-- A branch is appended iff it gives rows, and has as many columns as
the first. -/
theorem appendBranches_cons_eq_ok (version : DialectVersion) {width : Nat} {branch : UnionBranch}
    (hcore : branch.select.IsCore) {answers : List (Bool × (Unit → Result Answer))}
    {rows result : List Row} :
    appendBranches width ((branch.all, fun _ => branch.select.answer { store }) :: answers) rows =
        .ok result ↔
      ∃ piece, branch.Gives version store width piece ∧
        appendBranches width answers (UnionBranch.append rows (branch, piece)) = .ok result := by
  have hdistinct : ∀ piece, (if branch.all then rows ++ piece else Rows.distinct (rows ++ piece)) =
      UnionBranch.append rows (branch, piece) := fun piece => by
    rw [Rows.distinct_eq]
    rfl
  simp only [appendBranches, Result.bind_eq_ok, gives_iff hcore]
  constructor
  · rintro ⟨answer, hanswer, h⟩
    split at h
    · cases h
    · next hwidth =>
        obtain ⟨piece, hpiece, h⟩ := Result.bind_eq_ok.mp h
        rw [hdistinct] at h
        exact ⟨piece, ⟨answer, hanswer, Classical.not_not.mp hwidth, hpiece⟩, h⟩
  · rintro ⟨piece, ⟨answer, hanswer, hwidth, hrows⟩, h⟩
    refine ⟨answer, hanswer, ?_⟩
    rw [if_neg (not_not_intro hwidth)]
    refine Result.bind_eq_ok.mpr ⟨piece, hrows, ?_⟩
    rw [hdistinct]
    exact h

/-- Appending branches gives the rows of all of them iff each gives some,
with as many columns as the first. -/
theorem appendBranches_eq_ok (version : DialectVersion)
    (hcores : ∀ branch ∈ branches, branch.select.IsCore) {width : Nat} {rows result : List Row} :
    appendBranches width (UnionBranch.answers { store } branches) rows = .ok result ↔
      ∃ pieces, List.Forall₂ (UnionBranch.Gives version store width) branches pieces ∧
        result = (branches.zip pieces).foldl UnionBranch.append rows := by
  induction branches generalizing rows with
  | nil =>
      simp only [UnionBranch.answers, appendBranches, List.forall₂_nil_left_iff]
      constructor
      · intro h
        exact ⟨[], rfl, (Except.ok.inj h).symm⟩
      · rintro ⟨_, rfl, rfl⟩
        rfl
  | cons branch rest ih =>
      have hrest : ∀ b ∈ rest, b.select.IsCore := fun b hb => hcores b (List.mem_cons_of_mem _ hb)
      rw [answers_cons, appendBranches_cons_eq_ok version (hcores _ List.mem_cons_self)]
      simp only [ih hrest, List.forall₂_cons_left_iff]
      constructor
      · rintro ⟨piece, hpiece, pieces, hpieces, rfl⟩
        exact ⟨_, ⟨piece, pieces, hpiece, hpieces, rfl⟩, rfl⟩
      · rintro ⟨_, ⟨piece, pieces, hpiece, hpieces, rfl⟩, rfl⟩
        exact ⟨piece, hpiece, pieces, hpieces, rfl⟩

theorem sortRows_nil (rows : List Row) : sortRows [] rows = rows :=
  List.mergeSort_of_pairwise (List.pairwise_of_forall fun _ _ => rfl)

/-- A row limit that is read to the end. -/
theorem collect_take_ofList (limit : Option Nat) (rows : List Row) :
    (match limit with
      | some n => (Rows.ofList rows).take n
      | none => Rows.ofList rows).collect = .ok (limitRows limit rows) := by
  cases limit with
  | none => exact Rows.collect_ofList rows
  | some n => exact Rows.collect_take (Rows.collect_ofList rows) n

/-- The answer of a chain: its first branch without the TOP, the other
branches, and then the TOP as a limit of all rows. -/
theorem answer_chain (hfirst : first.IsCore) (hne : branches ≠ []) (context : Context) :
    (first.chain branches).answer context = do
      let limit ← rowCount .limit first.limit
      let own ← first.withoutTop.answer context
      let rows ← appendBranches own.columns.length (UnionBranch.answers context branches)
        (← own.rows.collect)
      return ⟨own.columns, match limit with
        | some n => (Rows.ofList rows).take n
        | none => Rows.ofList rows⟩ := by
  have hsome : (UnionBranch.answers context branches).isEmpty = false := by
    rw [answers_isEmpty]
    simpa using hne
  have hown : first.withoutTop.answer context =
      first.coreAnswer context (Expr.condition? context first.predicate) [] := by
    rw [answer_single (q := first.withoutTop) hfirst.ctes hfirst.unions hfirst.offset rfl]
    exact congrArg _ hfirst.orderBy
  rw [answer_eq, hown]
  have hoffset : rowCount .offset none = .ok none := rfl
  simp only [assemble, chain, hfirst.ctes, hfirst.offset, hfirst.orderBy, hsome, hoffset,
    List.isEmpty_nil, Bool.not_true, Bool.false_eq_true, if_false, Result.ok_bind, List.mapM_nil,
    pure_bind, sortRows_nil, Option.getD_none, Rows.drop_zero]
  rfl

/-- What a chain gives: with a TOP in its first branch, the first of all
rows. -/
theorem readAll_chain_eq_ok (hfirst : first.IsCore)
    (hcores : ∀ branch ∈ branches, branch.select.IsCore) (hne : branches ≠ [])
    {columns : List String} {rows : List Row} :
    (first.chain branches).readAll version store = .ok (columns, rows) ↔
      ∃ limit own pieces, rowCount .limit first.limit = .ok limit ∧
        first.withoutTop.readAll version store = .ok (columns, own) ∧
        List.Forall₂ (UnionBranch.Gives version store columns.length) branches pieces ∧
        rows = limitRows limit ((branches.zip pieces).foldl UnionBranch.append own) := by
  have hchain : (first.chain branches).ctes = [] := hfirst.ctes
  have hwithoutTop : first.withoutTop.ctes = [] := hfirst.ctes
  simp only [readAll_eq, evaluate_eq_answer hchain, evaluate_eq_answer hwithoutTop,
    answer_chain hfirst hne, Result.bind_eq_ok, Result.pure_eq_ok, Prod.mk.injEq,
    appendBranches_eq_ok version hcores]
  constructor
  · rintro ⟨answer, ⟨limit, hlimit, own, hown, ownRows, hownRows, all, ⟨pieces, hpieces, rfl⟩, rfl⟩,
      read, hread, rfl, rfl⟩
    rw [collect_take_ofList] at hread
    cases hread
    exact ⟨limit, ownRows, pieces, hlimit, ⟨own, hown, ownRows, hownRows, rfl, rfl⟩, hpieces, rfl⟩
  · rintro ⟨limit, ownRows, pieces, hlimit, ⟨own, hown, _, hownRows, rfl, rfl⟩, hpieces, rfl⟩
    refine ⟨_, ⟨limit, hlimit, own, hown, _, hownRows, _, ⟨pieces, hpieces, rfl⟩, rfl⟩, _, ?_, rfl, rfl⟩
    exact collect_take_ofList limit _

/-- A query with a TOP gives the first of the rows that it gives
without. -/
theorem readAll_of_withoutTop (hfirst : first.IsCore) {n : Nat}
    (hlimit : rowCount .limit first.limit = .ok (some n)) {columns : List String} {own : List Row}
    (hown : first.withoutTop.readAll version store = .ok (columns, own)) :
    first.readAll version store = .ok (columns, own.take n) := by
  have hwithoutTop : first.withoutTop.ctes = [] := hfirst.ctes
  rw [readAll_eq, evaluate_eq_answer hwithoutTop,
    answer_single hwithoutTop hfirst.unions hfirst.offset rfl] at hown
  obtain ⟨answer, hanswer, hown⟩ := Result.bind_eq_ok.mp hown
  obtain ⟨rows, hrows, hown⟩ := Result.bind_eq_ok.mp hown
  cases hown
  have hcore : first.coreAnswer { store } (Expr.condition? { store } first.predicate)
      first.orderBy = .ok answer := hanswer
  have hfull : first.answer { store } = .ok { answer with rows := answer.rows.take n } := by
    have hoffset : rowCount .offset none = .ok none := rfl
    rw [answer_eq]
    simp only [assemble, hfirst.ctes, hfirst.unions, hfirst.offset, UnionBranch.answers, hoffset,
      hlimit, hcore, List.isEmpty_nil, Bool.not_true, Bool.false_eq_true, if_false, if_true,
      Result.ok_bind, Option.getD_none, Rows.drop_zero]
    rfl
  rw [readAll_eq, evaluate_eq_answer hfirst.ctes, hfull, Result.ok_bind,
    Rows.collect_take hrows]
  rfl

/-- A chain whose first branch has no TOP can be read iff each branch
can be read on its own and all have as many columns. Its rows are then
those of the branches from left to right, without the later ones of equal
rows at each plain UNION. The same holds of a single branch.

With a TOP in the first of several branches these are still all rows of
that branch, and it is the rows of the chain that the TOP cuts off. So
the chain gives what its branches give iff it makes no difference to cut
off afterwards. -/
theorem readAll_chain (hfirst : first.IsCore)
    (hcores : ∀ branch ∈ branches, branch.select.IsCore) :
    (first.limit = none ∨ branches = [] → ∀ columns rows,
      (first.chain branches).readAll version store = .ok (columns, rows) ↔
        ∃ own pieces, first.readAll version store = .ok (columns, own) ∧
          List.Forall₂ (UnionBranch.Gives version store columns.length) branches pieces ∧
          rows = (branches.zip pieces).foldl UnionBranch.append own) ∧
    (branches ≠ [] → ∀ n columns own pieces, rowCount .limit first.limit = .ok (some n) →
      first.withoutTop.readAll version store = .ok (columns, own) →
      List.Forall₂ (UnionBranch.Gives version store columns.length) branches pieces →
      first.readAll version store = .ok (columns, own.take n) ∧
        (first.chain branches).readAll version store =
          .ok (columns, ((branches.zip pieces).foldl UnionBranch.append own).take n) ∧
        ((first.chain branches).readAll version store =
            .ok (columns, (branches.zip pieces).foldl UnionBranch.append (own.take n)) ↔
          ((branches.zip pieces).foldl UnionBranch.append own).take n =
            (branches.zip pieces).foldl UnionBranch.append (own.take n))) := by
  constructor
  · intro hplain columns rows
    by_cases hone : branches = []
    · subst hone
      have hfirst' : first.chain [] = first := by
        cases first
        cases hfirst.unions
        rfl
      rw [hfirst']
      simp only [List.forall₂_nil_left_iff]
      constructor
      · intro h
        exact ⟨rows, [], h, rfl, rfl⟩
      · rintro ⟨_, _, h, rfl, rfl⟩
        exact h
    · have hlimit := hplain.resolve_right hone
      have hwithoutTop : first.withoutTop = first := by
        cases first
        cases hlimit
        rfl
      rw [readAll_chain_eq_ok hfirst hcores hone, hwithoutTop, hlimit]
      constructor
      · rintro ⟨limit, own, pieces, hcount, hown, hpieces, rfl⟩
        cases hcount
        exact ⟨own, pieces, hown, hpieces, rfl⟩
      · rintro ⟨own, pieces, hown, hpieces, rfl⟩
        exact ⟨none, own, pieces, rfl, hown, hpieces, rfl⟩
  · intro hne n columns own pieces hlimit hown hpieces
    have hchain := (readAll_chain_eq_ok hfirst hcores hne).mpr
      ⟨some n, own, pieces, hlimit, hown, hpieces, rfl⟩
    refine ⟨readAll_of_withoutTop hfirst hlimit hown, hchain, ?_⟩
    rw [hchain]
    simp [limitRows]

end Select

namespace Unions

/-- `SELECT [TOP ...] id FROM tasks` -/
def taskIds (top : Option Expr) : Select where
  ctes := []
  distinct := false
  columns := [⟨.column none "id", none⟩]
  source := some ⟨"tasks", none, []⟩
  joins := []
  predicate := none
  groupBy := []
  having := none
  unions := []
  orderBy := []
  offset := none
  limit := top
  queryHints := []

def twoTasks : Store where
  entries :=
    [⟨"tasks", ⟨"tasks", [⟨"id", .integer, true, false, none, false⟩]⟩,
      [[.integer 1], [.integer 2]]⟩]

theorem taskIds_isCore (top : Option Expr) : (taskIds top).IsCore := ⟨rfl, rfl, rfl, rfl⟩

theorem taskIds_isCore_of_mem (top : Option Expr) :
    ∀ branch ∈ [(⟨true, taskIds top⟩ : UnionBranch)], branch.select.IsCore := by
  intro branch hbranch
  cases List.mem_singleton.mp hbranch
  exact taskIds_isCore top

/-- A TOP behind UNION ALL is that of its branch. -/
theorem taskIds_and_top_task :
    ((taskIds none).chain [⟨true, taskIds (some (.literal (.integer 1)))⟩]).readAll
        ⟨.sqlServer, 2022⟩ twoTasks =
      .ok (["id"], [[.integer 1], [.integer 2], [.integer 1]]) := by
  have hcores := taskIds_isCore_of_mem (some (.literal (.integer 1)))
  obtain ⟨hreads, -⟩ :=
    @Select.readAll_chain ⟨.sqlServer, 2022⟩ twoTasks _ _ (taskIds_isCore none) hcores
  refine (hreads (.inl rfl) _ _).mpr ⟨[[.integer 1], [.integer 2]], [[[.integer 1]]], rfl, ?_, rfl⟩
  exact .cons ⟨["id"], rfl, rfl⟩ .nil

/-- A TOP before UNION ALL is not: on its own the first branch gives one
row and the second two, and together they give one. -/
theorem top_task_and_taskIds :
    (taskIds (some (.literal (.integer 1)))).readAll ⟨.sqlServer, 2022⟩ twoTasks =
        .ok (["id"], [[.integer 1]]) ∧
      (taskIds none).readAll ⟨.sqlServer, 2022⟩ twoTasks =
        .ok (["id"], [[.integer 1], [.integer 2]]) ∧
      ((taskIds (some (.literal (.integer 1)))).chain [⟨true, taskIds none⟩]).readAll
          ⟨.sqlServer, 2022⟩ twoTasks =
        .ok (["id"], [[.integer 1]]) ∧
      ([(⟨true, taskIds none⟩ : UnionBranch)].zip [[[.integer 1], [.integer 2]]]).foldl
          UnionBranch.append [[.integer 1]] ≠
        [[.integer 1]] := by
  refine ⟨rfl, rfl, ?_, by decide⟩
  refine (Select.readAll_chain_eq_ok (taskIds_isCore _) (taskIds_isCore_of_mem none) nofun).mpr ?_
  refine ⟨some 1, [[.integer 1], [.integer 2]], [[[.integer 1], [.integer 2]]], rfl, rfl, ?_, rfl⟩
  exact .cons ⟨["id"], rfl, rfl⟩ .nil

end Unions

end DialectDb
