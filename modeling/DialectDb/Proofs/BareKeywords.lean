/-
Where a quoted name may be written as the bare keyword that it is. The
column of a qualified column may be, and so may a column that stands
alone. A name that qualifies a column or that is called may not: the
period or the parenthesis behind a bare keyword is left, and nothing goes
on with it.
-/
import DialectDb.Dialect.Catalog
import DialectDb.Proofs.RespelledStatements
import DialectDb.Proofs.UnquotedQueries

namespace DialectDb

open DialectDb.Parser DialectDb.Unquoting

-- ======================================================== whole texts

namespace Grammar

variable {g : Grammar} {around : Surroundings} {c d : Cursor} {word : Keyword} {name : String}

/-- Reads an expression up to the end of the text, in an upsert
assignment or elsewhere. -/
def expressionIn (upsert : Bool) (g : Grammar) : Parser Expr :=
  withReader ({ · with upsert }) (wholeExpression g)

theorem alike_expressionIn {R : Nat → Nat → Prop} (upsert : Bool) (hg : IsAlike R g) :
    ReadsAlike R (expressionIn upsert g) :=
  fun _ _ c c' haround hc => alike_wholeExpression hg _ _ c c' { haround with upsert := rfl } hc

theorem tracks_expressionIn (hg : TracksNames g) (upsert : Bool) :
    Leads ⟨.operand, []⟩ (expressionIn upsert g) ⟨.behind, []⟩ := by
  have hwhole : Leads ⟨.operand, []⟩ (wholeExpression g) ⟨.behind, []⟩ := by
    refine (hg.expression 0 _ _ rfl).leads fun e => tracks_peek fun o o' hpeek => ?_
    obtain rfl := Spot.eq_of_rel hpeek rfl
    cases o with
    | none => exact tracks_pure ⟨rfl, rfl⟩
    | some found =>
        have hfails : Copy.Fails (do
            throw (.malformed (← peekPosition) (.unexpected found)) : Parser Expr) := by
          intro around c
          obtain ⟨position, hposition⟩ := perform_peekPosition around c
          rw [perform_bind hposition]
          exact ⟨_, rfl⟩
        exact tracks_of_fails hfails hfails
  exact fun around size c c' hnil hc => hwhole { around with upsert } size c c' hnil hc

-- ============================================================= operands

/-- A name before a period or a parenthesis is not a column of its
own. -/
theorem named_ne_column {e : Expr} (h : (named g name).perform around c = .ok (e, d))
    (hhead : c.tokens.head? = some (.sign .period) ∨ c.tokens.head? = some (.sign .openParen)) :
    e ≠ .column none name := by
  obtain ⟨called, c₁, hparenthesis, hrest⟩ := perform_bind_eq_ok.mp h
  cases called with
  | true =>
      obtain ⟨args, c₂, -, hcall⟩ := perform_bind_eq_ok.mp hrest
      split at hcall
      · cases hcall
      · cases hcall
        exact nofun
  | false =>
      obtain ⟨qualified, c₂, hperiod, hcolumn⟩ := perform_bind_eq_ok.mp hrest
      cases qualified with
      | true =>
          obtain ⟨column, c₃, -, hread⟩ := perform_bind_eq_ok.mp hcolumn
          obtain ⟨_, c₄, -, hresult⟩ := perform_bind_eq_ok.mp hread
          split at hresult
          · cases hresult
            exact nofun
          · cases hresult
            exact nofun
      | false =>
          rcases perform_accept hparenthesis with ⟨htrue, -⟩ | ⟨-, hnone, rfl⟩
          · cases htrue
          rcases perform_accept hperiod with ⟨htrue, -⟩ | ⟨-, hnone', -⟩
          · cases htrue
          exact absurd hhead (not_or.mpr ⟨hnone', hnone⟩)

/-- As an operand, a bare keyword is read as the name in quotes exactly
if neither a period nor a parenthesis is behind it. -/
theorem operand_bare_iff (hword : word.isUnreserved = true) (position last ordinals : Nat)
    (rest : List Lexer.Lexeme) :
    (operand g).perform around ⟨⟨position, .keyword word⟩ :: rest, last, ordinals⟩ =
        (operand g).perform around ⟨⟨position, .ident word.word⟩ :: rest, last, ordinals⟩ ↔
      ∀ lexeme ∈ rest.head?, lexeme.token ≠ .sign .period ∧ lexeme.token ≠ .sign .openParen := by
  show (keywordOperand g word).perform around ⟨rest, position, ordinals⟩ =
    (named g word.word).perform around ⟨rest, position, ordinals⟩ ↔ _
  rw [perform_keywordOperand_column hword]
  have hhead (t : Token) : (⟨rest, position, ordinals⟩ : Cursor).tokens.head? = some t ↔
      ∃ lexeme ∈ rest.head?, lexeme.token = t := by
    unfold Cursor.tokens
    rw [List.head?_map]
    simp
  constructor
  · intro hsame lexeme hlexeme
    constructor
    · intro hperiod
      exact named_ne_column hsame.symm (.inl ((hhead _).mpr ⟨lexeme, hlexeme, hperiod⟩)) rfl
    · intro hparenthesis
      exact named_ne_column hsame.symm (.inr ((hhead _).mpr ⟨lexeme, hlexeme, hparenthesis⟩)) rfl
  · intro hplain
    refine (perform_named_column ?_ ?_).symm
    · rw [ne_eq, hhead]
      rintro ⟨lexeme, hlexeme, hparenthesis⟩
      exact (hplain lexeme hlexeme).2 hparenthesis
    · rw [ne_eq, hhead]
      rintro ⟨lexeme, hlexeme, hperiod⟩
      exact (hplain lexeme hlexeme).1 hperiod

/-- Where only a name is wanted, it may always be bare. -/
theorem identifier_bare (hword : word.isUnreserved = true) (position last ordinals : Nat)
    (rest : List Lexer.Lexeme) :
    identifier.perform around ⟨⟨position, .keyword word⟩ :: rest, last, ordinals⟩ =
      identifier.perform around ⟨⟨position, .ident word.word⟩ :: rest, last, ordinals⟩ := by
  have hname : nameOf? (.keyword word) = some word.word := if_pos hword
  unfold identifier
  rw [perform_bind rfl, perform_bind rfl, hname]
  rfl

end Grammar

namespace Unquoting

/-- One name may be bare. -/
theorem Place.unquotes_one {s : Place} (before after : List Token) {word : Keyword}
    (h : (before.foldl Place.after s).spot.Admits word after.head?) :
    s.Unquotes (before ++ .ident word.word :: after) (before ++ .keyword word :: after) := by
  induction before generalizing s with
  | nil => exact .bare h (.refl _ _)
  | cons t before ih => exact .same t (ih h)

end Unquoting

namespace Statement

/-- Expressions whose texts differ in bare names only are the same. -/
theorem readAs_unquoted_iff {v : DialectVersion} {upsert : Bool} {tokens tokens' : List Token}
    {e : Expr} (h : Place.Unquotes ⟨.operand, []⟩ tokens tokens') :
    ReadAs (Grammar.expressionIn upsert) v tokens e ↔
      ReadAs (Grammar.expressionIn upsert) v tokens' e := by
  have hsame (size size' : Nat) (lexemes lexemes' : List Lexer.Lexeme)
      (hlexemes : lexemes.map (·.token) = tokens) (hlexemes' : lexemes'.map (·.token) = tokens') :
      readTokens (Grammar.expressionIn upsert) v size ⟨lexemes, none⟩ = .ok e ↔
        readTokens (Grammar.expressionIn upsert) v size' ⟨lexemes', none⟩ = .ok e := by
    subst hlexemes hlexemes'
    have hlength := h.length_eq
    rw [List.length_map, List.length_map] at hlength
    have hread := Grammar.tracks_expressionIn
      (Grammar.tracksNames_ofDepth (lexemes.length + 1)) upsert
      { version := v, failure := none, size } size' { lexemes } { lexemes := lexemes' }
      trivial ⟨h, rfl⟩
    rw [readTokens_eq_ok, readTokens_eq_ok, ← hlength]
    generalize (Grammar.expressionIn upsert (Grammar.ofDepth (lexemes.length + 1))).perform
      { version := v, failure := none, size } { lexemes } = r at hread
    dsimp only at hread
    generalize (Grammar.expressionIn upsert (Grammar.ofDepth (lexemes.length + 1))).perform
      { version := v, failure := none, size := size' } { lexemes := lexemes' } = r' at hread
    cases hread with
    | ok hvalue hcursor =>
        obtain ⟨rfl, -⟩ := hvalue
        constructor
        · rintro ⟨d, hd⟩
          cases hd
          exact ⟨_, rfl⟩
        · rintro ⟨d, hd⟩
          cases hd
          exact ⟨_, rfl⟩
    | error e e' =>
        constructor
        · rintro ⟨d, hd⟩
          cases hd
        · rintro ⟨d, hd⟩
          cases hd
  constructor
  · intro hread size lexemes hlexemes
    exact (hsame 0 size _ lexemes (map_token_textOf tokens) hlexemes).mp
      (hread 0 _ (map_token_textOf tokens))
  · intro hread size lexemes hlexemes
    exact (hsame size 0 lexemes _ hlexemes (map_token_textOf tokens')).mpr
      (hread 0 _ (map_token_textOf tokens'))

/-- A quoted name that is the word of an unreserved keyword may be
written as that keyword, in every expression and at every place that
admits it: where only a name is wanted, as behind a period, and where an
operand is wanted if neither a period nor a parenthesis is behind it. An
operand depends on the token behind it in this way and no other, while a
name that is read as an identifier may always be bare. -/
theorem bare_keywords {word : Keyword} (hword : word.isUnreserved = true) :
    (∀ (v : DialectVersion) (upsert : Bool) (before after : List Token) (e : Expr),
      (Place.of before).spot.Admits word after.head? →
      (ReadAs (Grammar.expressionIn upsert) v (before ++ .ident word.word :: after) e ↔
        ReadAs (Grammar.expressionIn upsert) v (before ++ .keyword word :: after) e)) ∧
    ∀ (g : Grammar) (around : Surroundings) (position last ordinals : Nat)
      (rest : List Lexer.Lexeme),
      let quoted : Cursor := ⟨⟨position, .ident word.word⟩ :: rest, last, ordinals⟩
      let bare : Cursor := ⟨⟨position, .keyword word⟩ :: rest, last, ordinals⟩
      identifier.perform around bare = identifier.perform around quoted ∧
        ((Grammar.operand g).perform around bare = (Grammar.operand g).perform around quoted ↔
          ∀ lexeme ∈ rest.head?,
            lexeme.token ≠ .sign .period ∧ lexeme.token ≠ .sign .openParen) := by
  constructor
  · intro v upsert before after e hadmits
    exact readAs_unquoted_iff (Place.unquotes_one before after hadmits)
  · intro g around position last ordinals rest
    exact ⟨Grammar.identifier_bare hword position last ordinals rest,
      Grammar.operand_bare_iff hword position last ordinals rest⟩

/-- So `key IN (SELECT t.index FROM t)` is read as it is with both names
in quotes. Before a parenthesis `row` is not, unless only a name is
wanted. -/
theorem bare_keywords_membership :
    let tokens (left column : Token) : List Token := [left, .keyword .IN, .sign .openParen,
      .keyword .SELECT, .ident "t", .sign .period, column, .keyword .FROM, .ident "t",
      .sign .closeParen]
    let called (first : Token) : Cursor := ⟨[⟨0, first⟩, ⟨3, .sign .openParen⟩], 0, 0⟩
    let around : Surroundings := { version := ⟨.postgreSql, 16⟩, failure := none, size := 4 }
    (∃ e, ReadAs (Grammar.expressionIn false) ⟨.postgreSql, 16⟩
        (tokens (.ident "key") (.ident "index")) e ∧
      ReadAs (Grammar.expressionIn false) ⟨.postgreSql, 16⟩
        (tokens (.keyword .KEY) (.keyword .INDEX)) e) ∧
    identifier.perform around (called (.keyword .ROW)) =
      identifier.perform around (called (.ident "row")) ∧
    (Grammar.operand (Grammar.ofDepth 1)).perform around (called (.keyword .ROW)) ≠
      (Grammar.operand (Grammar.ofDepth 1)).perform around (called (.ident "row")) := by
  intro tokens called around
  constructor
  · have hquoted : ReadAs (Grammar.expressionIn false) ⟨.postgreSql, 16⟩
        (tokens (.ident "key") (.ident "index")) _ :=
      readAs_of_readTokens (fun _ => Grammar.alike_expressionIn false) rfl
    have hkey : Keyword.KEY.isUnreserved = true := rfl
    have hleft := ((bare_keywords hkey).1 _ false [] (tokens (.ident "key") (.ident "index")).tail
      _ (by decide)).mp hquoted
    have hindex : Keyword.INDEX.isUnreserved = true := rfl
    have hboth := ((bare_keywords hindex).1 _ false [.keyword .KEY, .keyword .IN, .sign .openParen,
      .keyword .SELECT, .ident "t", .sign .period] [.keyword .FROM, .ident "t", .sign .closeParen]
      _ (by decide)).mp hleft
    exact ⟨_, hquoted, hboth⟩
  · have hrow : Keyword.ROW.isUnreserved = true := rfl
    obtain ⟨hname, hoperand⟩ := (bare_keywords hrow).2 (Grammar.ofDepth 1) around 0 0 0
      [⟨3, .sign .openParen⟩]
    refine ⟨hname, fun hsame => ?_⟩
    exact (hoperand.mp hsame _ rfl).2 rfl

/-- A qualified column and a call, whose names are read in quotes only. -/
theorem bare_qualifier_rejected :
    let reads := ReadAs (Grammar.expressionIn false) ⟨.postgreSql, 16⟩
    let qualified (first : Token) : List Token := [first, .sign .period, .ident "a"]
    let called (first : Token) : List Token :=
      [first, .sign .openParen, .number "1", .sign .closeParen]
    (reads (qualified (.ident "key")) (.column (some "key") "a") ∧
      ∀ e, ¬reads (qualified (.keyword .KEY)) e) ∧
    (reads (called (.ident "row")) (.call "row" [.literal (.integer 1)]) ∧
      ∀ e, ¬reads (called (.keyword .ROW)) e) ∧
    (fun _ => ()) <$> parse ⟨.postgreSql, 16⟩ "SELECT \"key\".a FROM key" = .ok () ∧
    parse ⟨.postgreSql, 16⟩ "SELECT key.a FROM key" =
      .error (.malformed 10 (.unexpected (.sign .period))) := by
  intro reads qualified called
  have hreads {tokens : List Token} {e : Expr}
      (h : readTokens (Grammar.expressionIn false) ⟨.postgreSql, 16⟩ 0 (textOf tokens) = .ok e) :
      reads tokens e :=
    readAs_of_readTokens (fun _ => Grammar.alike_expressionIn false) h
  have hfails {tokens : List Token} {error : Error}
      (h : readTokens (Grammar.expressionIn false) ⟨.postgreSql, 16⟩ 0 (textOf tokens) =
        .error error) (e : Expr) : ¬reads tokens e := by
    intro hread
    have hok := hread 0 (textOf tokens).lexemes (map_token_textOf tokens)
    cases hok.symm.trans h
  refine ⟨⟨hreads rfl, hfails rfl⟩, ⟨hreads rfl, hfails rfl⟩, by decide +kernel, ?_⟩
  have hfault : (fun _ => ()) <$> parse ⟨.postgreSql, 16⟩ "SELECT key.a FROM key" =
      .error (.malformed 10 (.unexpected (.sign .period))) := by
    decide +kernel
  exact Result.map_eq_error.mp hfault

end Statement

end DialectDb
