/-
What can be written in several ways is the same statement in each of
them: a row limit with an offset, and an upsert.
-/
import DialectDb.Dialect.Catalog
import DialectDb.Proofs.PagedQueries
import DialectDb.Proofs.UpsertSpellings

namespace DialectDb.Statement

open DialectDb.Grammar

/-- Each of the ways to write a row limit behind a query that has none
makes the same query of it; and each of the ways to write an upsert makes
the same of an INSERT and its assignments, of which a column keeps the
last, at the place of the first. What is `VALUES(c)` in one spelling can
be `excluded.c` in the other. -/
theorem equal_spellings (v : DialectVersion) (hv : v.dialect ∈ Dialect.all) :
    (v.dialect.limitOffset = true → v.supportsPaging = true →
      ∀ (q n m : List Token) (query : Select) (e f : Expr),
        ReadAs wholeStatement v q (.select query) → query.offset = none → query.limit = none →
        q.getLast? ≠ some (.sign .semicolon) →
        ReadAs wholeExpression v n e → ReadAs wholeExpression v m f →
        .sign .question ∉ n → .sign .question ∉ m →
        n.head? ≠ some (.keyword .ROW) → n.head? ≠ some (.keyword .ROWS) →
        ∀ form ∈ pagingForms n m, ReadAs wholeStatement v (q ++ form)
          (.select { query with offset := some f, limit := some e })) ∧
    (v.dialect = .sqLite →
      ∀ (body : List Token) (i : Insert) (pieces : List UpsertPiece) (s : Statement),
        ReadAs wholeStatement v body (.insert i) → i.isUpsert = false →
        i.ignoreConflicts = false → body.getLast? ≠ some (.sign .semicolon) →
        ∀ head ∈ upsertHeads, ∀ head' ∈ upsertHeads,
          ReadAs wholeStatement v (body ++ head ++ pieces.flatMap UpsertPiece.values) s →
          ReadAs wholeStatement v (body ++ head' ++ pieces.flatMap UpsertPiece.excluded) s ∧
            ∃ written assigned,
              ReadAs writtenUpsert v (body ++ head ++ pieces.flatMap UpsertPiece.values)
                (i, written) ∧
              Assignment.Settles written assigned ∧
              s = .insert { i with assignments := assigned }) := by
  constructor
  · intro hlimits hpaging q n m query e f hq hoffset hlimit hlast hn hm hplain hplain' hrow hrows
      form hform
    have hrules : v.dialect.pagingRequiresOrderBy = false ∧ v.dialect.hints ≠ .table := by
      revert hlimits
      generalize v.dialect = dialect at hv
      revert dialect
      decide
    exact readAs_paged hlimits hpaging hrules.1 hrules.2 hq hoffset hlimit hlast hn hm hplain
      hplain' hrow hrows hform
  · intro hdialect body i pieces s hbody hplain hignore hlast head hhead head' hhead' h
    obtain ⟨written, rfl, hreads⟩ := readAs_upsert (hdialect ▸ by decide) (hdialect ▸ rfl)
      (hdialect ▸ rfl) hbody hplain hignore hlast hhead h
    refine ⟨(hreads head' hhead' _ fun k hproposes htail => ?_).2, written, _, ?_,
      Assignment.settles_settled written, rfl⟩
    · exact UpsertPiece.spells hproposes htail pieces
    · refine (hreads head hhead _ fun k _ htail => ?_).1
      have hsame := Respelling.spells_append k (pieces.flatMap UpsertPiece.values)
      rwa [htail, List.append_nil] at hsame

/-- So `SELECT a FROM t` is read alike with each way to ask for two rows
behind the first, and so is `INSERT INTO t VALUES (1)` with
`a = 2, "A" = VALUES(a) + 1` and with `a = 2, "A" = excluded.a + 1`. -/
theorem equal_spellings_sqLite :
    let q : List Token := [.keyword .SELECT, .ident "a", .keyword .FROM, .ident "t"]
    let body : List Token := [.keyword .INSERT, .keyword .INTO, .ident "t", .keyword .VALUES,
      .sign .openParen, .number "1", .sign .closeParen]
    let pieces : List UpsertPiece := [.token (.ident "a"), .token (.sign .equal),
      .token (.number "2"), .token (.sign .comma), .token (.ident "A"), .token (.sign .equal),
      .proposed (.ident "a"), .token (.sign .plus), .token (.number "1")]
    (∃ query : Select, ∀ form ∈ pagingForms [.number "2"] [.number "1"],
      ReadAs wholeStatement ⟨.sqLite, 3⟩ (q ++ form) (.select { query with
        offset := some (.literal (.integer 1)), limit := some (.literal (.integer 2)) })) ∧
    ∃ i : Insert, ∀ head ∈ upsertHeads,
      ReadAs wholeStatement ⟨.sqLite, 3⟩ (body ++ head ++ pieces.flatMap UpsertPiece.excluded)
        (.insert { i with
          assignments := [⟨"a", .binary .add (.excluded "a") (.literal (.integer 1))⟩] }) := by
  intro q body pieces
  obtain ⟨hpaging, hupsert⟩ := equal_spellings ⟨.sqLite, 3⟩ (by decide)
  have hstatement {tokens : List Token} {s : Statement}
      (h : readTokens wholeStatement ⟨.sqLite, 3⟩ 0 (textOf tokens) = .ok s) :
      ReadAs wholeStatement ⟨.sqLite, 3⟩ tokens s :=
    readAs_of_readTokens (fun _ => alike_wholeStatement) h
  have hexpression {tokens : List Token} {e : Expr}
      (h : readTokens wholeExpression ⟨.sqLite, 3⟩ 0 (textOf tokens) = .ok e) :
      ReadAs wholeExpression ⟨.sqLite, 3⟩ tokens e :=
    readAs_of_readTokens (fun _ => alike_wholeExpression) h
  constructor
  · exact ⟨_, hpaging rfl rfl q [.number "2"] [.number "1"] _ _ _ (hstatement rfl) rfl rfl
      (by decide) (hexpression rfl) (hexpression rfl) (by decide) (by decide) (by decide)
      (by decide)⟩
  · refine ⟨⟨"t", none, [[.literal (.integer 1)]], none, [], [], false⟩, fun head hhead => ?_⟩
    exact (hupsert rfl body _ pieces _ (hstatement rfl) rfl rfl (by decide)
      [.keyword .ON, .keyword .DUPLICATE, .keyword .KEY, .keyword .UPDATE] (by decide) head hhead
      (hstatement rfl)).1

end DialectDb.Statement
