/-
Statements as tokens, wherever in a text the tokens stand (`ReadAs`), and
what follows for a statement whose tokens go on: the part that was there
before is read as it was. For a query that is all up to its row limit,
and for INSERT all up to what is to be done with rows that conflict.
-/
import DialectDb.Proofs.DisplacedGrammar
import DialectDb.Proofs.RespelledQueries
import DialectDb.Proofs.WholeTexts

namespace DialectDb

open DialectDb.Parser

-- ======================================================== whole texts

namespace Statement

variable {α : Type} {parser : Grammar → Parser α} {v : DialectVersion} {tokens : List Token} {a : α}

/-- A text that is these tokens is read as a value, wherever they
stand. -/
def ReadAs (parser : Grammar → Parser α) (v : DialectVersion) (tokens : List Token) (a : α) :
    Prop :=
  ∀ (size : Nat) (lexemes : List Lexer.Lexeme), lexemes.map (·.token) = tokens →
    readTokens parser v size ⟨lexemes, none⟩ = .ok a

/-- A text of tokens alone, which all stand at its beginning. -/
def textOf (tokens : List Token) : Lexer.Lexed :=
  ⟨tokens.map (⟨0, ·⟩), none⟩

theorem map_token_textOf (tokens : List Token) :
    (textOf tokens).lexemes.map (·.token) = tokens := by
  unfold textOf
  rw [List.map_map]
  exact List.map_id tokens

/-- It is enough to read such a text. -/
theorem readAs_of_readTokens
    (hparser : ∀ g, Grammar.IsAlike (fun _ _ => True) g →
      ReadsAlike (fun _ _ => True) (parser g))
    (h : readTokens parser v 0 (textOf tokens) = .ok a) : ReadAs parser v tokens a := by
  intro size lexemes htokens
  have hsame : List.Forall₂ Eq ((textOf tokens).lexemes.map (·.token)) (lexemes.map (·.token)) := by
    rw [List.forall₂_eq_eq_eq, map_token_textOf]
    exact htokens.symm
  rw [List.forall₂_map_left_iff, List.forall₂_map_right_iff] at hsame
  have hdisplaced : (textOf tokens).Displaced (fun _ _ => True) ⟨lexemes, none⟩ :=
    ⟨hsame.imp fun _ _ heq => ⟨trivial, heq⟩, .none⟩
  have hresults : (readTokens parser v 0 (textOf tokens)).Displaced (fun _ _ => True)
      (readTokens parser v size ⟨lexemes, none⟩) :=
    readTokens_displaced hparser v trivial trivial hdisplaced
  rw [h] at hresults
  generalize readTokens parser v size ⟨lexemes, none⟩ = result at hresults
  cases hresults
  rfl

/-- What a whole text is read as is what its reader makes of it. -/
theorem readTokens_eq_ok {size : Nat} {lexemes : List Lexer.Lexeme} :
    readTokens parser v size ⟨lexemes, none⟩ = .ok a ↔
      ∃ d, (parser (Grammar.ofDepth (lexemes.length + 1))).perform
        { version := v, failure := none, size } { lexemes } = .ok (a, d) := by
  show ((parser (Grammar.ofDepth (lexemes.length + 1))).perform _ { lexemes } >>= fun p =>
    pure p.1) = _ ↔ _
  rw [Result.bind_eq_ok]
  constructor
  · rintro ⟨⟨b, d⟩, hperform, hpure⟩
    cases hpure
    exact ⟨d, hperform⟩
  · rintro ⟨d, hperform⟩
    exact ⟨(a, d), hperform, rfl⟩

/-- What tokens are read as can be seen in a text of them alone. -/
theorem ReadAs.perform (h : ReadAs parser v tokens a) :
    ∃ c d, c.tokens = tokens ∧ c.ordinals = 0 ∧
      (parser (Grammar.ofDepth (tokens.length + 1))).perform
        { version := v, failure := none, size := 0 } c = .ok (a, d) := by
  obtain ⟨d, hd⟩ := readTokens_eq_ok.mp (h 0 (textOf tokens).lexemes (map_token_textOf tokens))
  unfold textOf at hd
  rw [List.length_map] at hd
  exact ⟨{ lexemes := tokens.map (⟨0, ·⟩) }, d, map_token_textOf tokens, rfl, hd⟩

theorem readAs_of_perform
    (h : ∀ (size : Nat) (c : Cursor), c.tokens = tokens → c.ordinals = 0 →
      ∃ d, (parser (Grammar.ofDepth (tokens.length + 1))).perform
        { version := v, failure := none, size } c = .ok (a, d)) : ReadAs parser v tokens a := by
  intro size lexemes htokens
  have hlength : tokens.length = lexemes.length := by rw [← htokens, List.length_map]
  rw [readTokens_eq_ok, ← hlength]
  exact h size { lexemes } htokens rfl

end Statement

namespace Grammar

variable {g : Grammar} {around : Surroundings} {c d : Cursor} {s : Statement}

/-- Reads an expression up to the end of the text. -/
def wholeExpression (g : Grammar) : Parser Expr := do
  let e ← g.expression 0
  match ← peek with
  | none => pure e
  | some found => throw (.malformed (← peekPosition) (.unexpected found))

theorem alike_wholeExpression {R : Nat → Nat → Prop} {g : Grammar} (hg : IsAlike R g) :
    ReadsAlike R (wholeExpression g) := by
  refine (hg.expression 0).then fun e => alike_peek.then fun token => ?_
  split
  · exact alike_pure rfl
  · exact alike_peekPosition.bind fun _ _ h => alike_malformed h

theorem perform_wholeExpression {e : Expr} (h : (wholeExpression g).perform around c = .ok (e, d)) :
    (g.expression 0).perform around c = .ok (e, d) ∧ d.tokens = [] := by
  obtain ⟨e', behind, hexpression, h⟩ := perform_bind_eq_ok.mp h
  obtain ⟨found, c₁, hpeek, h⟩ := perform_bind_eq_ok.mp h
  obtain ⟨rfl, rfl, -⟩ := perform_peek_eq_ok.mp hpeek
  cases hend : c₁.tokens with
  | cons found rest =>
      rw [hend] at h
      obtain ⟨position, c₃, -, hthrow⟩ := perform_bind_eq_ok.mp h
      cases hthrow
  | nil =>
      rw [hend] at h
      cases h
      exact ⟨hexpression, hend⟩

/-- A statement with no more than a semicolon behind it is a whole
text. -/
theorem perform_wholeStatement_of (h : (statement g).perform around c = .ok (s, d))
    (hend : around.failure = none) (hleft : d.tokens = [] ∨ d.tokens = [Token.sign .semicolon]) :
    ∃ d', (wholeStatement g).perform around c = .ok (s, d') := by
  have hskip : Takes around (skipOver Sign.semicolon) d.tokens () [] := by
    rcases hleft with hleft | hleft
    · rw [hleft]
      exact takes_bind (takes_accept_false nofun) takes_pure
    · rw [hleft]
      exact takes_bind takes_accept takes_pure
  obtain ⟨behind, hbehind, hnil, -⟩ := hskip d rfl
  have hpeek : peek.perform around behind = .ok (none, behind) :=
    perform_peek_eq_ok.mpr ⟨by rw [hnil]; rfl, rfl, fun _ => hend⟩
  refine ⟨behind, perform_bind_eq_ok.mpr ⟨s, d, h, ?_⟩⟩
  refine perform_bind_eq_ok.mpr ⟨(), behind, hbehind, ?_⟩
  exact perform_bind_eq_ok.mpr ⟨none, behind, hpeek, rfl⟩

/-- A text that does not end with a semicolon is a statement to its
end. -/
theorem perform_statement_of_readAs {v : DialectVersion} {tokens : List Token}
    (h : Statement.ReadAs wholeStatement v tokens s)
    (hlast : tokens.getLast? ≠ some (.sign .semicolon)) :
    ∃ c d : Cursor, c.tokens = tokens ∧ c.ordinals = 0 ∧
      (statement (ofDepth (tokens.length + 1))).perform
        { version := v, failure := none, size := 0 } c = .ok (s, d) ∧ d.tokens = [] := by
  obtain ⟨c, d, rfl, hordinals, hperform⟩ := h.perform
  obtain ⟨-, behind, hstatement, hleft⟩ := perform_wholeStatement hperform
  refine ⟨c, behind, rfl, hordinals, hstatement, hleft.resolve_right fun hsemicolon => hlast ?_⟩
  obtain ⟨-, taken, htaken⟩ :=
    makes_statement (makesWellFormed_ofDepth _) _ _ s behind rfl hstatement
  have htokens : c.tokens = taken.map (·.token) ++ behind.tokens := by
    unfold Cursor.tokens
    rw [← htaken, List.map_append]
  rw [htokens, hsemicolon, List.getLast?_concat]

-- ==================================================== what a statement is

/-- The keywords that a statement may begin with. -/
def openers : Statement → List Keyword
  | .createTable .. => [.CREATE]
  | .dropTable .. => [.DROP]
  | .select _ => [.SELECT, .WITH]
  | .insert _ => [.INSERT]
  | .update _ => [.UPDATE]
  | .delete _ => [.DELETE]
  | .merge _ => [.MERGE]

/-- A statement begins with a keyword of its own. -/
theorem opens_statement (h : (statement g).perform around c = .ok (s, d)) :
    ∃ word ∈ openers s, c.tokens.head? = some (.keyword word) := by
  have hmap {α : Type} {x : Parser α} {f : α → Statement} {word : Keyword}
      (hf : ∀ a, word ∈ openers (f a)) : Yields (f <$> x) fun s => word ∈ openers s := by
    rw [← bind_pure_comp]
    exact yields_bind fun a => yields_pure (hf a)
  have hopens {x : Parser Statement} {word : Keyword}
      (hperform : x.perform around c = .ok (s, d)) (hhead : c.tokens.head? = some (.keyword word))
      (hx : Yields x fun s => word ∈ openers s) :
      ∃ word ∈ openers s, c.tokens.head? = some (.keyword word) :=
    ⟨word, hx around c s d hperform, hhead⟩
  obtain ⟨position, hposition⟩ := perform_peekPosition around c
  unfold statement at h
  rw [perform_bind hposition] at h
  obtain ⟨o, c₁, hpeek, h⟩ := perform_bind_eq_ok.mp h
  obtain ⟨rfl, rfl, -⟩ := perform_peek_eq_ok.mp hpeek
  split at h
  · obtain ⟨e, he⟩ := Copy.fails_ending (α := Statement) around c₁
    rw [he] at h
    cases h
  · next hhead =>
      refine hopens h hhead ?_
      exact yields_bind fun _ => yields_bind fun _ => yields_bind fun _ => yields_bind fun _ =>
        yields_pure List.mem_cons_self
  · next hhead =>
      refine hopens h hhead ?_
      refine yields_bind fun _ => yields_bind fun _ => yields_bind fun _ => yields_when ?_
      exact yields_bind fun _ => yields_pure List.mem_cons_self
  · next hhead =>
      refine hopens h hhead ?_
      refine yields_bind fun _ => yields_bind fun _ => yields_when ?_
      exact yields_bind fun _ => yields_bind fun _ => yields_pure List.mem_cons_self
  · next hhead =>
      refine hopens h hhead ?_
      refine yields_bind fun _ => yields_bind fun _ => yields_bind fun _ => yields_bind fun _ => ?_
      refine yields_bind fun _ => ?_
      split
      · exact yields_bind fun _ => yields_bind fun _ => hmap fun _ => List.mem_cons_self
      · exact yields_bind fun _ => yields_bind fun _ => yields_bind fun _ =>
          hmap fun _ => List.mem_cons_self
  · next hhead => exact hopens h hhead (hmap fun _ => List.mem_cons_self)
  · next hhead =>
      exact hopens h hhead (hmap fun _ => List.mem_cons_of_mem _ List.mem_cons_self)
  · next hhead =>
      refine hopens h hhead ?_
      exact yields_bind fun _ => yields_bind fun _ => yields_bind fun _ => yields_bind fun _ =>
        yields_bind fun _ => yields_pure List.mem_cons_self
  · next hhead =>
      refine hopens h hhead ?_
      refine yields_bind fun _ => yields_bind fun _ => yields_bind fun _ => yields_bind fun _ => ?_
      refine yields_bind fun _ => yields_bind fun _ => yields_bind fun _ => yields_bind fun _ => ?_
      refine yields_bind fun _ => ?_
      split
      · exact yields_bind fun _ => yields_bind fun _ => yields_pure List.mem_cons_self
      · exact yields_pure List.mem_cons_self
  · cases h

/-- What is read where a query begins. -/
theorem perform_statement_query (hend : around.failure = none)
    (h : c.tokens.head? = some (.keyword .SELECT) ∨ c.tokens.head? = some (.keyword .WITH)) :
    (statement g).perform around c = (Statement.select <$> g.select).perform around c := by
  obtain ⟨position, hposition⟩ := perform_peekPosition around c
  have hpeek : peek.perform around c = .ok (c.tokens.head?, c) :=
    perform_peek_eq_ok.mpr ⟨rfl, rfl, fun _ => hend⟩
  unfold statement
  rw [perform_bind hposition, perform_bind hpeek]
  rcases h with hhead | hhead <;> rw [hhead]

theorem perform_statement_insert (hend : around.failure = none)
    (h : c.tokens.head? = some (.keyword .INSERT)) :
    (statement g).perform around c = (insert g).perform around c := by
  obtain ⟨position, hposition⟩ := perform_peekPosition around c
  have hpeek : peek.perform around c = .ok (c.tokens.head?, c) :=
    perform_peek_eq_ok.mpr ⟨rfl, rfl, fun _ => hend⟩
  unfold statement
  rw [perform_bind hposition, perform_bind hpeek, h]

end Grammar

end DialectDb
