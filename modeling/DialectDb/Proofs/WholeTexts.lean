/-
A text that parses is one statement and nothing else. A reader that asks
for an optional token is told that there is none where the text cannot be
cut any further, and goes on; so the lexical failure there could get lost
if the readers stopped before it. They do not: what is left behind a
statement is looked at once more, and a failure there is raised.
-/
import DialectDb.Proofs.Lexing
import DialectDb.Proofs.Constructs
import DialectDb.Proofs.MadeStatements
import DialectDb.Dialect.Catalog

namespace DialectDb

open DialectDb.Parser DialectDb.Lexer

-- ===================================================== behind a statement

namespace Grammar

variable {g : Grammar} {around : Surroundings} {c d : Cursor} {s : Statement}

/-- A token that is passed over is the one that is looked for. -/
theorem perform_skipOver {t : Token} (h : (skipOver t).perform around c = .ok ((), d)) :
    c.tokens = d.tokens ∨ c.tokens = t :: d.tokens := by
  obtain ⟨_, c₁, haccept, hpure⟩ := perform_bind_eq_ok.mp h
  cases hpure
  rcases perform_accept haccept with ⟨-, htaken⟩ | ⟨-, -, rfl⟩
  · exact .inr htaken
  · exact .inl rfl

/-- Behind the statement of a whole text there is no more than a
semicolon, and no lexical failure. -/
theorem perform_wholeStatement (h : (wholeStatement g).perform around c = .ok (s, d)) :
    around.failure = none ∧ ∃ behind : Cursor,
      (statement g).perform around c = .ok (s, behind) ∧
      (behind.tokens = [] ∨ behind.tokens = [Token.sign .semicolon]) := by
  obtain ⟨s', behind, hstatement, h⟩ := perform_bind_eq_ok.mp h
  obtain ⟨_, c₁, hskip, h⟩ := perform_bind_eq_ok.mp h
  obtain ⟨found, c₂, hpeek, h⟩ := perform_bind_eq_ok.mp h
  cases found with
  | some found =>
      obtain ⟨position, c₃, -, hthrow⟩ := perform_bind_eq_ok.mp h
      cases hthrow
  | none =>
      cases h
      obtain ⟨hnone, -, hfailure⟩ := perform_peek_eq_ok.mp hpeek
      have hend : c₁.tokens = [] := List.head?_eq_none_iff.mp hnone.symm
      refine ⟨hfailure hend, behind, hstatement, ?_⟩
      rw [← hend]
      exact perform_skipOver hskip

end Grammar

-- ========================================================== whole texts

namespace Statement

/-- A text that is cut into tokens up to its end, of which a statement
has taken all but perhaps a semicolon at the very end. -/
structure TakesAll (version : DialectVersion) (text : String) (s : Statement)
    (taken left : List Lexeme) : Prop where
  cut : Cuts version.dialect.lexical 0 text.toList (taken ++ left) none
  taken : ∃ behind : Cursor, behind.lexemes = left ∧
    (Grammar.statement (Grammar.ofDepth ((taken ++ left).length + 1))).perform
      { version, failure := none, size := text.utf8ByteSize } { lexemes := taken ++ left } =
        .ok (s, behind)
  left : left.map (·.token) = [] ∨ left.map (·.token) = [Token.sign .semicolon]

theorem takesAll_of_parse {version : DialectVersion} {text : String} {s : Statement}
    (h : parse version text = .ok s) : ∃ taken left, TakesAll version text s taken left := by
  obtain ⟨⟨s, d⟩, hperform, hpure⟩ := Result.bind_eq_ok.mp h
  cases hpure
  obtain ⟨hfailure, behind, hstatement, hleft⟩ := Grammar.perform_wholeStatement hperform
  have hcut := cuts_iff.mpr (rfl : lex version.dialect.lexical text = _)
  -- What the statement leaves is an end of the tokens, so that what it
  -- has taken stands before.
  obtain ⟨-, taken, htaken⟩ :=
    Grammar.makes_statement (Grammar.makesWellFormed_ofDepth _) _ _ s behind rfl hstatement
  dsimp only at htaken hfailure
  refine ⟨taken, behind.lexemes, ?_, ⟨behind, rfl, ?_⟩, hleft⟩
  · rw [htaken, ← hfailure]
    exact hcut
  · rw [htaken, ← hfailure]
    exact hstatement

/-- No lexical failure is swallowed: where a text cannot be cut to its
end, it does not parse; and of a text that parses all is cut into tokens
and all tokens are taken, up to one semicolon at the end. -/
theorem parse_takes_all (version : DialectVersion) (text : String) :
    (∀ lexemes failure, Cuts version.dialect.lexical 0 text.toList lexemes (some failure) →
      ∃ e, parse version text = .error e) ∧
    ∀ s, parse version text = .ok s → ∃ taken left, TakesAll version text s taken left := by
  refine ⟨fun lexemes failure hcut => ?_, fun s => takesAll_of_parse⟩
  cases hparse : parse version text with
  | error e => exact ⟨e, rfl⟩
  | ok s =>
      obtain ⟨taken, left, hall⟩ := takesAll_of_parse hparse
      cases (hall.cut.unique hcut).2

/-- So a string that is not closed behind a whole query is an error,
and with the semicolon the query takes all tokens but that one. -/
theorem parse_takes_all_query :
    (∃ e, parse ⟨.mySql, 8⟩ "SELECT a FROM t WHERE b 'c" = .error e) ∧
    ∃ s taken left, parse ⟨.mySql, 8⟩ "SELECT a FROM t # the end\n;" = .ok s ∧
      TakesAll ⟨.mySql, 8⟩ "SELECT a FROM t # the end\n;" s taken left := by
  have hcut : lex (DialectVersion.mk .mySql 8).dialect.lexical "SELECT a FROM t WHERE b 'c" =
      ⟨(lex (DialectVersion.mk .mySql 8).dialect.lexical "SELECT a FROM t WHERE b 'c").lexemes,
        some ⟨24, .unterminatedString⟩⟩ := by
    decide +kernel
  have hqueries : (·.queries.length) <$> parse ⟨.mySql, 8⟩ "SELECT a FROM t # the end\n;" =
      .ok 1 := by
    decide +kernel
  obtain ⟨s, hread, -⟩ := Result.map_eq_ok.mp hqueries
  obtain ⟨taken, left, hall⟩ := (parse_takes_all _ _).2 s hread
  exact ⟨(parse_takes_all _ _).1 _ _ (cuts_iff.mpr hcut), s, taken, left, hread, hall⟩

end Statement

end DialectDb
