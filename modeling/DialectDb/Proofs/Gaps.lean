/-
Blanks and comments between tokens carry no meaning. What is skipped in
front of a token is a `Gap`, and one more gap there is skipped as well.
The tokens before it are scanned as they were, since none of them goes on
with what a gap begins with; only those behind it have moved.

One gap is not put in here: a comment of two dashes that begins at once,
which a minus before it would turn into a comment of its own.
-/
import DialectDb.Dialect.Catalog
import DialectDb.Proofs.DisplacedGrammar
import DialectDb.Proofs.Scanning

namespace DialectDb.Lexer

open Text

variable {rules : LexicalRules}

/-- Signs of comments are one byte each. -/
theorem utf8Size_of_ascii {c : Char} (h : c.val < 128) : c.utf8Size = 1 := by
  unfold Char.utf8Size
  rw [if_pos]
  exact Nat.le_of_lt_succ h

-- ================================================================= gaps

/-- Blanks and closed comments. A comment up to the end of the line is
closed by a line feed. -/
inductive Gap (rules : LexicalRules) : List Char → Prop
  | nil : Gap rules []
  | blank {c : Char} {gap : List Char} (h : isBlank c = true) (hgap : Gap rules gap) :
      Gap rules (c :: gap)
  | dashes {body gap : List Char} (h : '\n' ∉ body) (hgap : Gap rules gap) :
      Gap rules ('-' :: '-' :: (body ++ '\n' :: gap))
  | hash {body gap : List Char} (hallowed : rules.hashComments = true) (h : '\n' ∉ body)
      (hgap : Gap rules gap) : Gap rules ('#' :: (body ++ '\n' :: gap))
  | block {body gap : List Char} (h : ¬['*', '/'] <:+: body) (hgap : Gap rules gap) :
      Gap rules ('/' :: '*' :: (body ++ '*' :: '/' :: gap))

/-- Nothing is skipped before this character. -/
def Stops (rules : LexicalRules) (c : Char) (rest : List Char) : Prop :=
  isBlank c = false ∧ (c = '-' → rest.head? ≠ some '-') ∧ (c = '/' → rest.head? ≠ some '*') ∧
    (c = '#' → rules.hashComments = false)

theorem Stops.skip {c : Char} {rest : List Char} (h : Stops rules c rest) (position : Nat) :
    skip rules .blanks position (c :: rest) = .ok (position, c :: rest) := by
  obtain ⟨hblank, hdash, hblock, hhash⟩ := h
  unfold Lexer.skip
  rw [hblank, if_neg (by decide)]
  split
  · exact absurd rfl (hdash rfl)
  · exact absurd rfl (hblock rfl)
  · rw [hhash rfl]
    rfl
  · rfl

theorem stops_hash (h : ¬rules.hashComments = true) (rest : List Char) : Stops rules '#' rest :=
  ⟨rfl, nofun, nofun, fun _ => by simpa using h⟩

/-- Anything else stops where it opens no comment. -/
theorem stops_of_ne {c : Char} {rest : List Char} (hblank : ¬isBlank c = true)
    (hdash : ∀ tail, c = '-' → rest = '-' :: tail → False)
    (hblock : ∀ tail, c = '/' → rest = '*' :: tail → False) (hhash : c = '#' → False) :
    Stops rules c rest :=
  ⟨by simpa using hblank, fun heq => head?_ne (hdash · heq), fun heq => head?_ne (hblock · heq),
    fun heq => (hhash heq).elim⟩

/-- What is passed in each kind of skipping. -/
def Skipped (rules : LexicalRules) : Skipping → List Char → Prop
  | .blanks, text => Gap rules text
  | .line, text => ∃ body gap, text = body ++ '\n' :: gap ∧ '\n' ∉ body ∧ Gap rules gap
  | .block _, text =>
    ∃ body gap, text = body ++ '*' :: '/' :: gap ∧ ¬['*', '/'] <:+: body ∧ Gap rules gap

theorem skip_blank {c : Char} (h : isBlank c = true) (position : Nat) (rest : List Char) :
    skip rules .blanks position (c :: rest) =
      skip rules .blanks (position + c.utf8Size) rest := by
  rw [skip.eq_def]
  exact if_pos h

theorem skip_hash (h : rules.hashComments = true) (position : Nat) (rest : List Char) :
    skip rules .blanks position ('#' :: rest) = skip rules .line (position + 1) rest := by
  rw [skip.eq_def]
  exact if_pos h

/-- To the end of a line. -/
theorem skip_line {body : List Char} (h : '\n' ∉ body) (rest : List Char) (position : Nat) :
    skip rules .line position (body ++ '\n' :: rest) =
      skip rules .blanks (position + byteSize body + 1) rest := by
  induction body generalizing position with
  | nil => rfl
  | cons c body ih =>
      obtain ⟨hc, hbody⟩ := not_or.mp (mt List.mem_cons.mpr h)
      rw [List.cons_append, skip, if_neg (Ne.symm hc), ih hbody, byteSize_cons, ← Nat.add_assoc]

/-- To the end of a comment. -/
theorem skip_block {body : List Char} (h : ¬['*', '/'] <:+: body) (rest : List Char)
    (start position : Nat) :
    skip rules (.block start) position (body ++ '*' :: '/' :: rest) =
      skip rules .blanks (position + byteSize body + 2) rest := by
  induction body generalizing position with
  | nil => simp [skip]
  | cons c body ih =>
      have hbody : ¬['*', '/'] <:+: body :=
        fun hin => h (hin.trans (List.suffix_cons c body).isInfix)
      have hopen : ∀ tail, c = '*' → body ++ '*' :: '/' :: rest = '/' :: tail → False := by
        rintro tail rfl htail
        cases body with
        | nil => cases htail
        | cons d body =>
            obtain ⟨rfl, -⟩ := List.cons.inj htail
            exact h ⟨[], body, rfl⟩
      rw [List.cons_append, skip, ih hbody, byteSize_cons, ← Nat.add_assoc]
      exact hopen

/-- A gap is skipped. -/
theorem Gap.skip {gap : List Char} (h : Gap rules gap) (rest : List Char) (position : Nat) :
    skip rules .blanks position (gap ++ rest) =
      Lexer.skip rules .blanks (position + byteSize gap) rest := by
  induction h generalizing position with
  | nil => rfl
  | blank hc _ ih => rw [List.cons_append, skip_blank hc, ih, byteSize_cons, ← Nat.add_assoc]
  | @dashes body gap hbody _ ih =>
      have hopen (tail : List Char) : Lexer.skip rules .blanks position ('-' :: '-' :: tail) =
        Lexer.skip rules .line (position + 2) tail := rfl
      rw [List.cons_append, List.cons_append, List.append_assoc, List.cons_append, hopen,
        skip_line hbody, ih]
      simp (disch := decide) only [byteSize_cons, byteSize_append, utf8Size_of_ascii]
      congr 1
      omega
  | @hash body gap hallowed hbody _ ih =>
      rw [List.cons_append, List.append_assoc, List.cons_append, skip_hash hallowed,
        skip_line hbody, ih]
      simp (disch := decide) only [byteSize_cons, byteSize_append, utf8Size_of_ascii]
      congr 1
      omega
  | @block body gap hbody _ ih =>
      have hopen (tail : List Char) : Lexer.skip rules .blanks position ('/' :: '*' :: tail) =
        Lexer.skip rules (.block position) (position + 2) tail := rfl
      rw [List.cons_append, List.cons_append, List.append_assoc, List.cons_append, List.cons_append,
        hopen, skip_block hbody, ih]
      simp (disch := decide) only [byteSize_cons, byteSize_append, utf8Size_of_ascii]
      congr 1
      omega

/-- A token is found behind a gap. -/
theorem skip_eq_cons {skipping : Skipping} {position after : Nat} {text rest : List Char} {c : Char}
    (h : skip rules skipping position text = .ok (after, c :: rest)) :
    ∃ gap, Skipped rules skipping gap ∧ text = gap ++ c :: rest ∧
      after = position + byteSize gap ∧ Stops rules c rest := by
  fun_induction skip rules skipping position text
  case case1 => cases h
  case case2 hblank ih =>
    obtain ⟨gap, hgap, rfl, rfl, hstops⟩ := ih h
    exact ⟨_, .blank hblank hgap, rfl, by simp [Nat.add_assoc], hstops⟩
  case case3 ih =>
    obtain ⟨_, ⟨body, gap, rfl, hbody, hgap⟩, rfl, rfl, hstops⟩ := ih h
    refine ⟨_, .dashes hbody hgap, by simp, ?_, hstops⟩
    simp (disch := decide) only [byteSize_cons, byteSize_append, utf8Size_of_ascii]
    omega
  case case4 ih =>
    obtain ⟨_, ⟨body, gap, rfl, hbody, hgap⟩, rfl, rfl, hstops⟩ := ih h
    refine ⟨_, .block hbody hgap, by simp, ?_, hstops⟩
    simp (disch := decide) only [byteSize_cons, byteSize_append, utf8Size_of_ascii]
    omega
  case case5 hallowed _ ih =>
    obtain ⟨_, ⟨body, gap, rfl, hbody, hgap⟩, rfl, rfl, hstops⟩ := ih h
    refine ⟨_, .hash hallowed hbody hgap, by simp, ?_, hstops⟩
    simp (disch := decide) only [byteSize_cons, byteSize_append, utf8Size_of_ascii]
    omega
  case case6 hallowed _ =>
    cases h
    exact ⟨[], .nil, rfl, rfl, stops_hash hallowed _⟩
  case case7 hblank _ hdash hblock hhash =>
    cases h
    exact ⟨[], .nil, rfl, rfl, stops_of_ne hblank hdash hblock hhash⟩
  case case8 => cases h
  case case9 position d tail ih =>
    by_cases hd : d = '\n'
    · rw [if_pos hd] at ih h
      obtain ⟨gap, hgap, rfl, rfl, hstops⟩ := ih h
      exact ⟨_, ⟨[], gap, rfl, by simp, hgap⟩, by simp [hd], by simp [hd, Nat.add_assoc], hstops⟩
    · rw [if_neg hd] at ih h
      obtain ⟨_, ⟨body, gap, rfl, hbody, hgap⟩, rfl, rfl, hstops⟩ := ih h
      refine ⟨_, ⟨d :: body, gap, rfl, ?_, hgap⟩, by simp, by simp [Nat.add_assoc], hstops⟩
      simp [Ne.symm hd, hbody]
  case case10 => cases h
  case case11 ih =>
    obtain ⟨gap, hgap, rfl, rfl, hstops⟩ := ih h
    refine ⟨_, ⟨[], gap, rfl, by simp, hgap⟩, by simp, ?_, hstops⟩
    simp (disch := decide) only [byteSize_cons, byteSize_append, utf8Size_of_ascii, byteSize_nil]
    omega
  case case12 position d tail hopen ih =>
    obtain ⟨_, ⟨body, gap, rfl, hbody, hgap⟩, rfl, rfl, hstops⟩ := ih h
    refine ⟨_, ⟨d :: body, gap, rfl, ?_, hgap⟩, by simp, by simp [Nat.add_assoc], hstops⟩
    rintro hin
    rcases List.infix_cons_iff.mp hin with ⟨more, hbegins⟩ | hin
    · obtain ⟨rfl, rfl⟩ := List.cons.inj hbegins
      exact hopen _ rfl rfl
    · exact hbody hin

-- ================================================================ moves

/-- A comment that started further on. -/
def Skipping.moved (n : Nat) : Skipping → Skipping
  | .block start => .block (start + n)
  | skipping => skipping

def Lexeme.moved (n : Nat) (l : Lexeme) : Lexeme :=
  { l with position := l.position + n }

def Failure.moved (n : Nat) (f : Failure) : Failure :=
  { f with position := f.position + n }

/-- Where a text stands makes no difference to what is skipped. -/
theorem skip_moved (n : Nat) (skipping : Skipping) (position : Nat) (text : List Char) :
    skip rules (skipping.moved n) (position + n) text =
      match skip rules skipping position text with
      | .ok (after, rest) => .ok (after + n, rest)
      | .error start => .error (start + n) := by
  have hcomm (a b : Nat) : a + b + n = a + n + b := by omega
  fun_induction skip rules skipping position text
  case case1 => rfl
  case case2 hblank ih =>
    rw [← ih, hcomm]
    exact skip_blank hblank _ _
  case case3 ih =>
    rw [← ih, hcomm]
    rfl
  case case4 ih =>
    rw [← ih, hcomm]
    rfl
  case case5 hallowed _ ih =>
    rw [← ih, hcomm]
    exact skip_hash hallowed _ _
  case case6 hallowed _ =>
    exact (stops_hash hallowed _).skip _
  case case7 hblank _ hdash hblock hhash =>
    exact (stops_of_ne hblank hdash hblock hhash).skip _
  case case8 => rfl
  case case9 d tail ih =>
    rw [← ih, hcomm]
    show skip rules .line _ _ = _
    rw [skip]
    split <;> rfl
  case case10 => rfl
  case case11 ih =>
    rw [← ih, hcomm]
    rfl
  case case12 d tail hopen ih =>
    rw [← ih, hcomm]
    show skip rules (.block _) _ _ = _
    rw [skip]
    · rfl
    · exact hopen

/-- A comment that is not closed starts in the text, or has started before
it. -/
theorem le_of_skip_eq_error {skipping : Skipping} {position start : Nat} {text : List Char}
    (h : skip rules skipping position text = .error start) :
    position ≤ start ∨ skipping = .block start := by
  fun_induction skip rules skipping position text
  case case2 ih => exact .inl ((ih h).elim (Nat.le_trans (Nat.le_add_right _ _)) (by simp))
  case case3 ih => exact .inl ((ih h).elim (Nat.le_trans (Nat.le_add_right _ _)) (by simp))
  case case4 ih =>
    refine .inl ((ih h).elim (Nat.le_trans (Nat.le_add_right _ _)) fun heq => ?_)
    exact Nat.le_of_eq (Skipping.block.inj heq)
  case case5 ih => exact .inl ((ih h).elim (Nat.le_trans (Nat.le_add_right _ _)) (by simp))
  case case9 ih =>
    refine .inl ((ih h).elim (Nat.le_trans (Nat.le_add_right _ _)) fun heq => ?_)
    split at heq <;> cases heq
  case case10 =>
    cases h
    exact .inr rfl
  case case11 ih => exact .inl ((ih h).elim (Nat.le_trans (Nat.le_add_right _ _)) (by simp))
  case case12 ih => exact (ih h).imp_left (Nat.le_trans (Nat.le_add_right _ _))
  all_goals cases h

/-- Nothing is found before where the text begins. -/
theorem Cuts.le {position : Nat} {text : List Char} {lexemes : List Lexeme}
    {failure : Option Failure} (h : Cuts rules position text lexemes failure) :
    (∀ l ∈ lexemes, position ≤ l.position) ∧ ∀ f ∈ failure, position ≤ f.position := by
  induction h with
  | finish => simp
  | comment hskip =>
      refine ⟨nofun, ?_⟩
      rintro _ ⟨⟩
      exact (le_of_skip_eq_error hskip).resolve_right (by simp)
  | fault hskip =>
      obtain ⟨size, rfl, -⟩ := skip_eq_ok hskip
      refine ⟨nofun, ?_⟩
      rintro _ ⟨⟩
      exact Nat.le_add_right _ _
  | token hskip _ _ ih =>
      obtain ⟨size, rfl, -⟩ := skip_eq_ok hskip
      refine ⟨List.forall_mem_cons.mpr ⟨Nat.le_add_right _ _, fun l hl => ?_⟩, fun f hf => ?_⟩
      · exact Nat.le_trans (by omega) (ih.1 l hl)
      · exact Nat.le_trans (by omega) (ih.2 f hf)

/-- A text further on is cut into the same tokens. -/
theorem Cuts.moved {position : Nat} {text : List Char} {lexemes : List Lexeme}
    {failure : Option Failure} (n : Nat) (h : Cuts rules position text lexemes failure) :
    Cuts rules (position + n) text (lexemes.map (·.moved n)) (failure.map (·.moved n)) := by
  have hskip {position after : Nat} {text rest : List Char}
      (h : skip rules .blanks position text = .ok (after, rest)) :
      skip rules .blanks (position + n) text = .ok (after + n, rest) := by
    have hmoved := @skip_moved rules n .blanks position text
    rw [h] at hmoved
    exact hmoved
  induction h with
  | finish h => exact .finish (hskip h)
  | @comment position start text h =>
      have hmoved := @skip_moved rules n .blanks position text
      rw [h] at hmoved
      exact .comment hmoved
  | fault h hscan => exact .fault (hskip h) hscan
  | token h hscan _ ih =>
      rw [Nat.add_right_comm] at ih
      exact .token (hskip h) hscan ih

-- =========================================================== one more

/-- Places before a gap stay where they are, and those behind it are
further on by its size. -/
def Widened (start size p q : Nat) : Prop :=
  p ≤ start ∧ q = p ∨ start ≤ p ∧ q = p + size

/-- One gap more in front of a token that has been found. -/
theorem Follows.gap {gap : List Char} (h : Gap rules gap) (hdash : gap.head? ≠ some '-')
    (rest : List Char) : Follows rest (gap ++ rest) := by
  cases h with
  | nil => exact .inl rfl
  | blank hc =>
      refine .inr ?_
      rintro _ ⟨⟩
      simp [breaks, hc]
  | dashes => exact absurd rfl hdash
  | hash => exact .inr (by rintro _ ⟨⟩; rfl)
  | block => exact .inr (by rintro _ ⟨⟩; rfl)

/-- A character that nothing is skipped before. -/
theorem Stops.follows {c : Char} {rest rest' : List Char} (h : Stops rules c rest)
    (hfollows : Follows rest rest') : Stops rules c rest' :=
  ⟨h.1, fun heq => hfollows.head_ne rfl (h.2.1 heq), fun heq => hfollows.head_ne rfl (h.2.2.1 heq),
    h.2.2.2⟩

/-- Of two beginnings of a text the one with more bytes goes on from the
other. -/
theorem append_of_byteSize_le {a b c d : List Char} (h : a ++ b = c ++ d)
    (hsize : byteSize a ≤ byteSize c) : ∃ e, c = a ++ e ∧ b = e ++ d := by
  rcases List.append_eq_append_iff.mp h with hlonger | ⟨e, rfl, rfl⟩
  · exact hlonger
  · rw [byteSize_append] at hsize
    cases e with
    | nil => exact ⟨[], by simp, rfl⟩
    | cons x e =>
        have hpos := x.utf8Size_pos
        rw [byteSize_cons] at hsize
        omega

theorem append_of_byteSize_eq {a b c d : List Char} (h : a ++ b = c ++ d)
    (hsize : byteSize a = byteSize c) : a = c ∧ b = d := by
  obtain ⟨e, rfl, rfl⟩ := append_of_byteSize_le h hsize.le
  cases e with
  | nil => simp
  | cons x e =>
      have hpos := x.utf8Size_pos
      rw [byteSize_append, byteSize_cons] at hsize
      omega

/-- What is skipped in front of a token does not depend on what stands
behind it. -/
theorem skip_followed {skipped passed rest rest' : List Char} {c : Char}
    (hskipped : Gap rules skipped) (hstops : Stops rules c (passed ++ rest))
    (hfollows : Follows rest rest') (position : Nat) :
    skip rules .blanks position (skipped ++ c :: passed ++ rest') =
      .ok (position + byteSize skipped, c :: (passed ++ rest')) := by
  rw [List.append_assoc, List.cons_append, hskipped.skip]
  exact (hstops.follows (hfollows.behind passed)).skip _

/-- What is behind the gap has moved. -/
theorem displaced_moved {start size : Nat} {lexemes : List Lexeme} {failure : Option Failure}
    (hlexemes : ∀ l ∈ lexemes, start ≤ l.position) (hfailure : ∀ f ∈ failure, start ≤ f.position) :
    Lexed.Displaced (Widened start size) ⟨lexemes, failure⟩
      ⟨lexemes.map (·.moved size), failure.map (·.moved size)⟩ where
  lexemes := List.forall₂_map_right_iff.mpr
    (List.forall₂_same.mpr fun l hl => ⟨.inr ⟨hlexemes l hl, rfl⟩, rfl⟩)
  failure := by
    cases failure with
    | none => exact .none
    | some f => exact .some ⟨.inr ⟨hfailure f rfl, rfl⟩, rfl⟩

/-- One gap more before a token moves that token and what comes behind
it, and changes nothing else. -/
theorem Cuts.gap {position : Nat} {before gap rest : List Char} {lexemes : List Lexeme}
    {failure : Option Failure} (h : Cuts rules position (before ++ rest) lexemes failure)
    (hgap : Gap rules gap) (hdash : gap.head? ≠ some '-')
    (hstart : ∃ l ∈ lexemes, l.position = position + byteSize before) :
    ∃ lexemes' failure', Cuts rules position (before ++ gap ++ rest) lexemes' failure' ∧
      Lexed.Displaced (Widened (position + byteSize before) (byteSize gap)) ⟨lexemes, failure⟩
        ⟨lexemes', failure'⟩ := by
  generalize htext : before ++ rest = text at h
  induction h generalizing before with
  | finish => obtain ⟨_, ⟨⟩, _⟩ := hstart
  | comment => obtain ⟨_, ⟨⟩, _⟩ := hstart
  | fault => obtain ⟨_, ⟨⟩, _⟩ := hstart
  | @token position after text tail c r lexemes failure hskip hscan hrest ih =>
      obtain ⟨skipped, hskipped, rfl, rfl, hstops⟩ := skip_eq_cons hskip
      obtain ⟨passed, rfl, hlocal⟩ := scan_local hscan
      obtain ⟨l, hl, hposition⟩ := hstart
      have hsize : r.size = byteSize (c :: passed) := by
        obtain ⟨whole, hwhole, hsize⟩ := (scan_of hscan).passes
        rw [← List.cons_append, List.append_cancel_right_eq] at hwhole
        rw [hsize, hwhole]
      rcases List.mem_cons.mp hl with rfl | hl
      · -- the gap comes right before this token
        obtain ⟨rfl, rfl⟩ := append_of_byteSize_eq htext (by simp_all)
        have hmoved : skip rules .blanks position (before ++ gap ++ c :: (passed ++ r.rest)) =
            .ok (position + byteSize before + byteSize gap, c :: (passed ++ r.rest)) := by
          rw [List.append_assoc, Gap.skip hskipped, hgap.skip, hstops.skip]
        have hcuts := hrest.moved (byteSize gap)
        rw [Nat.add_right_comm] at hcuts
        refine ⟨_, _, .token hmoved hscan hcuts, ?_⟩
        have hle := (Cuts.token (hstops.skip _) hscan hrest).le
        exact displaced_moved hle.1 hle.2
      · -- the gap comes further on, and this token is scanned as before
        have hbehind := (hrest.le.1 l hl).trans_eq hposition
        obtain ⟨between, rfl, hrest'⟩ := append_of_byteSize_le (a := skipped ++ c :: passed)
          (b := r.rest) (c := before) (d := rest) (by simp [htext]) (by simp_all; omega)
        obtain ⟨lexemes', failure', hcuts, hdisplaced⟩ :=
          ih ⟨l, hl, by simp_all; omega⟩ hrest'.symm
        have hfollows := (Follows.gap hgap hdash rest).behind between
        rw [← hrest', ← List.append_assoc] at hfollows
        have hfirst := skip_followed hskipped hstops hfollows position
        rw [← List.append_assoc, ← List.append_assoc] at hfirst
        have hplace : position + byteSize skipped + r.size + byteSize between =
            position + byteSize (skipped ++ c :: passed ++ between) := by
          simp only [hsize, byteSize_append, Nat.add_assoc]
        rw [hplace] at hdisplaced
        refine ⟨_, _, .token hfirst (hlocal _ hfollows) hcuts, ⟨?_, hdisplaced.failure⟩⟩
        have hbefore : position + byteSize skipped ≤
            position + byteSize (skipped ++ c :: passed ++ between) := by
          simp only [byteSize_append]
          omega
        exact .cons ⟨.inl ⟨hbefore, rfl⟩, rfl⟩ hdisplaced.lexemes

end DialectDb.Lexer

namespace DialectDb

open Lexer

theorem Text.byteSize_eq (chars : List Char) :
    byteSize chars = (String.ofList chars).utf8ByteSize := by
  induction chars with
  | nil => rfl
  | cons c chars ih =>
      rw [String.ofList_cons, String.utf8ByteSize_append, String.utf8ByteSize_singleton, ← ih,
        byteSize_cons]

/-- One gap more before a token of a text changes what the text is read as
only in the place that a failure names: both texts are the same
statement, or they fail with the same error, and if this is about a
place, the place is the same before the gap, and behind it further on by
the size of the gap. -/
theorem Statement.parse_gap {version : DialectVersion} {before gap after : String}
    (hgap : Gap version.dialect.lexical gap.toList) (hdash : gap.toList.head? ≠ some '-')
    (hstart : ∃ l ∈ (lex version.dialect.lexical (before ++ after)).lexemes,
      l.position = before.utf8ByteSize) :
    (parse version (before ++ after)).Displaced (Widened before.utf8ByteSize gap.utf8ByteSize)
      (parse version (before ++ gap ++ after)) := by
  have hsize (text : String) : Text.byteSize text.toList = text.utf8ByteSize := by
    rw [Text.byteSize_eq, String.ofList_toList]
  unfold parse
  generalize hlexed : lex version.dialect.lexical (before ++ after) = lexed at hstart
  obtain ⟨found, end?⟩ := lexed
  have hcuts := cuts_iff.mpr hlexed
  rw [String.toList_append] at hcuts
  obtain ⟨lexemes, failure, hmoved, hdisplaced⟩ := hcuts.gap hgap hdash
    (by simpa only [Nat.zero_add, hsize] using hstart)
  rw [← String.toList_append, ← String.toList_append] at hmoved
  rw [Nat.zero_add, hsize, hsize] at hdisplaced
  rw [cuts_iff.mp hmoved]
  refine readTokens_displaced (fun _ hg => Grammar.alike_wholeStatement hg) version
    (.inl ⟨Nat.zero_le _, rfl⟩) (.inr ⟨?_, ?_⟩) hdisplaced
  · rw [String.utf8ByteSize_append]
    exact Nat.le_add_right _ _
  · simp only [String.utf8ByteSize_append]
    omega

/-- A comment between a minus and a name is read over, and a string that
is not closed further on is reported in its new place. -/
theorem Statement.parse_gap_unterminated :
    Gap Dialect.mySql.lexical " /* -- */\t".toList ∧ " /* -- */\t".toList.head? ≠ some '-' ∧
      (∃ l ∈ (lex Dialect.mySql.lexical ("SELECT a -" ++ "b FROM t WHERE 'c")).lexemes,
        l.position = "SELECT a -".utf8ByteSize) ∧
      (parse ⟨.mySql, 8⟩ ("SELECT a -" ++ "b FROM t WHERE 'c")).Displaced (Widened 10 10)
        (parse ⟨.mySql, 8⟩ ("SELECT a -" ++ " /* -- */\t" ++ "b FROM t WHERE 'c")) := by
  have hgap : Gap Dialect.mySql.lexical " /* -- */\t".toList := by
    have hparts : " /* -- */\t".toList =
        ' ' :: '/' :: '*' :: ([' ', '-', '-', ' '] ++ '*' :: '/' :: ['\t']) := by decide +kernel
    rw [hparts]
    exact .blank rfl (.block (by decide) (.blank rfl .nil))
  have hdash : " /* -- */\t".toList.head? ≠ some '-' := by decide +kernel
  have hstart : ∃ l ∈ (lex Dialect.mySql.lexical ("SELECT a -" ++ "b FROM t WHERE 'c")).lexemes,
      l.position = "SELECT a -".utf8ByteSize := by decide +kernel
  have hread := @parse_gap ⟨.mySql, 8⟩ _ _ _ hgap hdash hstart
  rw [show "SELECT a -".utf8ByteSize = 10 by decide +kernel,
    show " /* -- */\t".utf8ByteSize = 10 by decide +kernel] at hread
  exact ⟨hgap, hdash, hstart, hread⟩

end DialectDb
