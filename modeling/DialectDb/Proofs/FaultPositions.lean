/-
The positions that syntax errors name. Each is where a token stands, or
where the text cannot be cut into tokens, or the end of the text; so it
never falls within a character, however many bytes characters have.

That readers name no other positions is read off what they do when a text
is displaced (`Parser.Alike`). A reader treats a position as a thing that
it knows nothing of, so it can name only those that it was given: the
relation of positions is taken to be equality on the ones that are
marked, and a text corresponds to itself.

One position is not marked. Before the first token has been taken, the
last one is said to have stood at 0. No failure names it, since every
statement begins by taking a token, and from there on it makes no
difference where the one before stood (`Parser.Unplaced`).
-/
import DialectDb.Proofs.Gaps

namespace DialectDb

-- =============================================================== lexing

namespace Lexer

variable {rules : LexicalRules}

/-- From a position one gets to another by passing over a beginning of
the text that stands there. -/
def Reaches (position : Nat) (text : List Char) (p : Nat) (rest : List Char) : Prop :=
  ∃ size, p = position + size ∧ Passes text size rest

theorem Reaches.refl (position : Nat) (text : List Char) : Reaches position text position text :=
  ⟨0, rfl, .none text⟩

theorem Reaches.trans {position p q : Nat} {text mid rest : List Char}
    (h : Reaches position text p mid) (h' : Reaches p mid q rest) :
    Reaches position text q rest := by
  obtain ⟨size, rfl, passed, rfl, rfl⟩ := h
  obtain ⟨more, rfl, hpasses⟩ := h'
  exact ⟨Text.byteSize passed + more, Nat.add_assoc _ _ _, hpasses.behind passed⟩

/-- Some characters further on. -/
theorem Reaches.behind (passed : List Char) {position after p : Nat} {text rest : List Char}
    (hafter : after = position + Text.byteSize passed) (h : Reaches after text p rest) :
    Reaches position (passed ++ text) p rest :=
  Reaches.trans ⟨Text.byteSize passed, hafter, passed, rfl, rfl⟩ h

/-- A position in a text is between two characters, or at an end. -/
theorem Reaches.isValid {text : String} {p : Nat} {rest : List Char}
    (h : Reaches 0 text.toList p rest) : (⟨p⟩ : String.Pos.Raw).IsValid text := by
  obtain ⟨_, rfl, passed, htext, rfl⟩ := h
  have hparts : text = String.ofList passed ++ String.ofList rest := by
    rw [← String.ofList_append, ← htext, String.ofList_toList]
  rw [String.Pos.Raw.isValid_iff_exists_append, Nat.zero_add, Text.byteSize_eq]
  exact ⟨String.ofList passed, String.ofList rest, hparts, rfl⟩

/-- Where a character follows, the text has not ended. -/
theorem Reaches.lt_size {text : String} {p : Nat} {c : Char} {rest : List Char}
    (h : Reaches 0 text.toList p (c :: rest)) : p < text.utf8ByteSize := by
  obtain ⟨_, rfl, passed, htext, rfl⟩ := h
  have hsize := Text.byteSize_eq text.toList
  rw [String.ofList_toList, htext, Text.byteSize_append, Text.byteSize_cons] at hsize
  have hpos := c.utf8Size_pos
  omega

/-- A comment that is not closed starts in the text, if it has not started
before. -/
theorem skip_eq_error {skipping : Skipping} {position start : Nat} {text : List Char}
    (h : skip rules skipping position text = .error start) :
    (∃ rest, Reaches position text start rest) ∨ skipping = .block start := by
  have hbehind (passed : List Char) {position after : Nat} {text : List Char}
      (hafter : after = position + Text.byteSize passed)
      (hrest : ∃ rest, Reaches after text start rest) :
      ∃ rest, Reaches position (passed ++ text) start rest := by
    obtain ⟨rest, hreaches⟩ := hrest
    exact ⟨rest, hreaches.behind passed hafter⟩
  have hblanks : Skipping.blanks ≠ .block start := by simp
  have hline : Skipping.line ≠ .block start := by simp
  fun_induction skip rules skipping position text
  case case2 c _ _ ih => exact .inl (hbehind [c] (by simp) ((ih h).resolve_right hblanks))
  case case3 ih => exact .inl (hbehind ['-', '-'] rfl ((ih h).resolve_right hline))
  case case4 position rest ih =>
    -- this is where it may have started
    rcases ih h with hrest | hopened
    · exact .inl (hbehind ['/', '*'] rfl hrest)
    · obtain rfl := Skipping.block.inj hopened
      exact .inl ⟨_, .refl _ _⟩
  case case5 ih => exact .inl (hbehind ['#'] rfl ((ih h).resolve_right hline))
  case case9 c _ ih =>
    have hnext : (if c = '\n' then Skipping.blanks else .line) ≠ .block start := by
      split <;> assumption
    exact .inl (hbehind [c] (by simp) ((ih h).resolve_right hnext))
  case case10 =>
    cases h
    exact .inr rfl
  case case11 ih => exact .inl (hbehind ['*', '/'] rfl ((ih h).resolve_right hblanks))
  case case12 c _ _ ih => exact (ih h).imp_left (hbehind [c] (by simp))
  all_goals cases h

/-- Tokens start in the text, in front of a character, and so does what
cannot be cut into tokens. -/
theorem Cuts.reaches {position : Nat} {text : List Char} {lexemes : List Lexeme}
    {failure : Option Failure} (h : Cuts rules position text lexemes failure) :
    (∀ l ∈ lexemes, ∃ c rest, Reaches position text l.position (c :: rest)) ∧
      ∀ f ∈ failure, ∃ rest, Reaches position text f.position rest := by
  induction h with
  | finish => simp
  | comment hskip =>
      have hstart := (skip_eq_error hskip).resolve_right nofun
      simpa using hstart
  | fault hskip =>
      have hstart : Reaches _ _ _ _ := skip_eq_ok hskip
      simp only [List.not_mem_nil, false_imp_iff, implies_true, true_and]
      intro f hf
      cases hf
      exact ⟨_, hstart⟩
  | @token position after text rest c r lexemes failure hskip hscan _ ih =>
      have hstart : Reaches position text after (c :: rest) := skip_eq_ok hskip
      have hbehind : Reaches position text (after + r.size) r.rest :=
        hstart.trans ⟨r.size, rfl, (scan_of hscan).passes⟩
      constructor
      · intro l hl
        rcases List.mem_cons.mp hl with rfl | hl
        · exact ⟨c, rest, hstart⟩
        · obtain ⟨d, more, hreaches⟩ := ih.1 l hl
          exact ⟨d, more, hbehind.trans hreaches⟩
      · intro f hf
        obtain ⟨more, hreaches⟩ := ih.2 f hf
        exact ⟨more, hbehind.trans hreaches⟩

/-- Every token starts further on than the ones before it. -/
theorem Cuts.increasing {position : Nat} {text : List Char} {lexemes : List Lexeme}
    {failure : Option Failure} (h : Cuts rules position text lexemes failure) :
    lexemes.Pairwise fun l m => l.position < m.position := by
  induction h with
  | finish => exact .nil
  | comment => exact .nil
  | fault => exact .nil
  | @token position after text rest c r lexemes failure hskip hscan hrest ih =>
      apply List.Pairwise.cons _ ih
      intro m hm
      have hsize := (scan_of hscan).size_pos
      have hle := hrest.le.1 m hm
      show after < m.position
      omega

/-- The positions that are marked: where tokens start, where the text
cannot be cut any further, and where it ends. -/
def Lexed.Marks (tokens : Lexed) (size p : Nat) : Prop :=
  p = size ∨ (∃ l ∈ tokens.lexemes, l.position = p) ∨ ∃ f ∈ tokens.failure, f.position = p

/-- A text stands in its own place, on the marked positions. -/
theorem Lexed.displaced_self (tokens : Lexed) (size : Nat) :
    tokens.Displaced (fun p q => p = q ∧ tokens.Marks size p) tokens where
  lexemes := List.forall₂_same.mpr fun l hl => ⟨⟨rfl, .inr (.inl ⟨l, hl, rfl⟩)⟩, rfl⟩
  failure := by
    cases hfailure : tokens.failure with
    | none => exact .none
    | some f => exact .some ⟨⟨rfl, .inr (.inr ⟨f, hfailure, rfl⟩)⟩, rfl⟩

end Lexer

-- ============================================== before the first token

namespace Parser

variable {α β : Type}

/-- It makes no difference to the reader where the last token stood. -/
def Unplaced (x : Parser α) : Prop :=
  ∀ around c p, x.perform around { c with position := p } = x.perform around c

theorem unplaced_throw (e : Error) : Unplaced (throw e : Parser α) :=
  fun _ _ _ => rfl

/-- What is read afterwards starts where the first reader has stopped. -/
theorem Unplaced.bind {x : Parser α} (hx : Unplaced x) (f : α → Parser β) :
    Unplaced (x >>= f) := by
  intro around c p
  show (x.perform around { c with position := p } >>= fun q => (f q.1).perform around q.2) =
    (x.perform around c >>= fun q => (f q.1).perform around q.2)
  rw [hx around c p]

theorem Unplaced.map {x : Parser α} (hx : Unplaced x) (f : α → β) : Unplaced (f <$> x) := by
  rw [← bind_pure_comp]
  exact hx.bind _

theorem unplaced_read {f : Surroundings → Parser α} (hf : ∀ s, Unplaced (f s)) :
    Unplaced (read >>= f) :=
  fun around c p => hf around around c p

theorem unplaced_ending : Unplaced (ending : Parser α) := by
  apply unplaced_read
  intro s
  split
  · exact unplaced_throw _
  · exact unplaced_throw _

/-- The token that is taken is the last one from then on. -/
theorem unplaced_next : Unplaced next := by
  intro around c p
  obtain ⟨lexemes, position, ordinals⟩ := c
  cases lexemes with
  | nil => exact unplaced_ending around ⟨[], position, ordinals⟩ p
  | cons l rest => rfl

theorem unplaced_expect (t : Token) : Unplaced (expect t) :=
  unplaced_next.bind _

/-- The next token can be looked at first. -/
theorem unplaced_peek {f : Option Token → Parser α} (hf : ∀ o, Unplaced (f o)) :
    Unplaced (peek >>= f) := by
  intro ⟨version, failure, size, upsert⟩ ⟨lexemes, position, ordinals⟩ p
  cases lexemes with
  | cons l rest => exact hf (some l.token) _ ⟨l :: rest, position, ordinals⟩ p
  | nil =>
      cases failure with
      | some failure => rfl
      | none => exact hf none _ ⟨[], position, ordinals⟩ p

theorem unplaced_peekPosition {f : Nat → Parser α} (hf : ∀ p, Unplaced (f p)) :
    Unplaced (peekPosition >>= f) := by
  intro around ⟨lexemes, position, ordinals⟩ p
  cases lexemes with
  | cons l rest => exact hf l.position around ⟨l :: rest, position, ordinals⟩ p
  | nil => exact hf around.size around ⟨[], position, ordinals⟩ p

/-- A token that may be there is either taken or left. -/
theorem unplaced_nextMap {f : Token → Option α} {k : Option α → Parser β}
    (hk : Unplaced (k none)) : Unplaced (nextMap? f >>= k) := by
  intro around ⟨lexemes, position, ordinals⟩ p
  cases lexemes with
  | nil => exact hk around ⟨[], position, ordinals⟩ p
  | cons l rest =>
      have hnext (position : Nat) :
          (nextMap? f).perform around ⟨l :: rest, position, ordinals⟩ = .ok (f l.token,
            if (f l.token).isSome then ⟨rest, l.position, ordinals⟩
            else ⟨l :: rest, position, ordinals⟩) := by
        unfold nextMap?
        rw [perform_bind rfl]
        dsimp only
        cases f l.token <;> rfl
      rw [perform_bind (hnext p), perform_bind (hnext position)]
      cases f l.token with
      | none => exact hk around ⟨l :: rest, position, ordinals⟩ p
      | some a => rfl

theorem unplaced_accept {t : Token} {f : Bool → Parser α} (hf : Unplaced (f false)) :
    Unplaced (accept t >>= f) := by
  unfold accept
  rw [bind_assoc]
  apply unplaced_nextMap
  exact hf

/-- So is a clause. -/
theorem unplaced_clause {word : Keyword} {x : Parser α} {f : Option α → Parser β}
    (hf : Unplaced (f none)) : Unplaced (clause? word x >>= f) := by
  unfold clause?
  rw [bind_assoc]
  apply unplaced_accept
  exact hf

end Parser

namespace Grammar

open DialectDb.Parser

variable {g : Grammar}

theorem unplaced_core : Unplaced (core g) :=
  (unplaced_expect _).bind _

/-- A query begins with WITH or with SELECT. -/
theorem unplaced_selectWith : Unplaced (selectWith g) := by
  unfold selectWith withClause
  rw [bind_assoc]
  apply unplaced_clause
  rw [pure_bind]
  exact unplaced_core.bind _

/-- A statement begins with a keyword of its own. -/
theorem unplaced_statement (hselect : Unplaced g.select) : Unplaced (statement g) := by
  apply unplaced_peekPosition
  intro position
  apply unplaced_peek
  intro token
  split
  · exact unplaced_ending
  · exact (unplaced_expect _).bind _
  · exact (unplaced_expect _).bind _
  · exact (unplaced_expect _).bind _
  · exact (unplaced_expect _).bind _
  · exact hselect.map _
  · exact hselect.map _
  · exact (unplaced_expect _).bind _
  · exact (unplaced_expect _).bind _
  · exact unplaced_throw _

theorem unplaced_wholeStatement (hselect : Unplaced g.select) : Unplaced (wholeStatement g) :=
  (unplaced_statement hselect).bind _

end Grammar

-- ========================================================= whole texts

namespace Statement

open DialectDb.Parser Lexer

/-- A failure to read tokens as a statement names a marked position. -/
theorem marks_of_readTokens {version : DialectVersion} {size p : Nat} {tokens : Lexed}
    {f : Malformed}
    (h : readTokens Grammar.wholeStatement version size tokens = .error (.malformed p f)) :
    tokens.Marks size p := by
  have hread := Grammar.alike_wholeStatement
    (Grammar.isAlike_ofDepth (R := fun p q => p = q ∧ tokens.Marks size p)
      (tokens.lexemes.length + 1))
    { version, failure := tokens.failure, size } { version, failure := tokens.failure, size }
    { lexemes := tokens.lexemes, position := size } { lexemes := tokens.lexemes, position := size }
    ⟨rfl, (tokens.displaced_self size).failure, ⟨rfl, .inl rfl⟩, rfl⟩
    ⟨(tokens.displaced_self size).lexemes, ⟨rfl, .inl rfl⟩, rfl⟩
  have hunplaced := Grammar.unplaced_wholeStatement (g := .ofDepth (tokens.lexemes.length + 1))
    Grammar.unplaced_selectWith { version, failure := tokens.failure, size }
    { lexemes := tokens.lexemes } size
  rw [hunplaced] at hread
  have hresult : (readTokens Grammar.wholeStatement version size tokens).Displaced
      (fun p q => p = q ∧ tokens.Marks size p)
      (readTokens Grammar.wholeStatement version size tokens) := hread.result
  rw [h] at hresult
  cases hresult with
  | error herror =>
      cases herror with
      | malformed hmarks => exact hmarks.2
      | other hother => exact absurd rfl (hother p f)

/-- The position that a syntax error names is that of a token, or the one
where the text cannot be cut into tokens, or the end of the text, and is
never within a character. Tokens start at increasing positions in the
text, none of them within a character either. -/
theorem parse_position (version : DialectVersion) (text : String) :
    (∀ p f, parse version text = .error (.malformed p f) →
      (⟨p⟩ : String.Pos.Raw).IsValid text ∧
        (p = text.utf8ByteSize ∨
          (∃ l ∈ (lex version.dialect.lexical text).lexemes, l.position = p) ∨
          ∃ failure ∈ (lex version.dialect.lexical text).failure, failure.position = p)) ∧
    (lex version.dialect.lexical text).lexemes.Pairwise (fun l m => l.position < m.position) ∧
    ∀ l ∈ (lex version.dialect.lexical text).lexemes,
      (⟨l.position⟩ : String.Pos.Raw).IsValid text ∧ l.position < text.utf8ByteSize := by
  have hcuts := cuts_lex version.dialect.lexical text
  obtain ⟨htokens, hfailure⟩ := hcuts.reaches
  have htoken (l : Lexeme) (hl : l ∈ (lex version.dialect.lexical text).lexemes) :
      (⟨l.position⟩ : String.Pos.Raw).IsValid text ∧ l.position < text.utf8ByteSize := by
    obtain ⟨c, rest, hreaches⟩ := htokens l hl
    exact ⟨hreaches.isValid, hreaches.lt_size⟩
  constructor
  · intro p f hparse
    have hmarks := marks_of_readTokens hparse
    constructor
    · rcases hmarks with rfl | ⟨l, hl, rfl⟩ | ⟨failure, hmem, rfl⟩
      · exact String.Pos.Raw.isValid_rawEndPos
      · exact (htoken l hl).1
      · obtain ⟨rest, hreaches⟩ := hfailure failure hmem
        exact hreaches.isValid
    · exact hmarks
  · exact ⟨hcuts.increasing, htoken⟩

/-- A number where a statement should have ended is named behind a
character of two bytes. -/
theorem parse_position_behind_accent :
    parse ⟨.postgreSql, 16⟩ "SELECT 'é' 5" = .error (.malformed 12 (.unexpected (.number "5"))) ∧
      (⟨12⟩ : String.Pos.Raw).IsValid "SELECT 'é' 5" ∧
        (12 = "SELECT 'é' 5".utf8ByteSize ∨
          (∃ l ∈ (lex Dialect.postgreSql.lexical "SELECT 'é' 5").lexemes, l.position = 12) ∨
          ∃ failure ∈ (lex Dialect.postgreSql.lexical "SELECT 'é' 5").failure,
            failure.position = 12) := by
  have hfails : (fun _ => 0) <$> parse ⟨.postgreSql, 16⟩ "SELECT 'é' 5" =
      .error (.malformed 12 (.unexpected (.number "5"))) := by
    decide +kernel
  have hparse := Result.map_eq_error.mp hfails
  exact ⟨hparse, (parse_position ⟨.postgreSql, 16⟩ "SELECT 'é' 5").1 _ _ hparse⟩

end Statement

end DialectDb
