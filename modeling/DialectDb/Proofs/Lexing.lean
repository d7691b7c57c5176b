/-
The cutting of a text into tokens, without a bound. `lexWithin` takes at
most as many steps as it is given; `Cuts` is the same as a relation that
knows no bound, so that a text is cut up to its end or up to the first
place where it cannot be cut any further.

The bound of `lex` is great enough because every token has a character.
All that skips or scans passes over a beginning of the text and counts
its bytes (`Passes`), and a scanner that succeeds has counted some.
-/
import DialectDb.Lexer
import DialectDb.Proofs.Result
import Mathlib.Data.List.TakeDrop

namespace DialectDb

-- =============================================================== bytes

namespace Text

theorem foldl_size (chars : List Char) (size : Nat) :
    chars.foldl (fun size c => size + c.utf8Size) size = size + byteSize chars := by
  unfold byteSize
  induction chars generalizing size with
  | nil => rfl
  | cons c rest ih =>
      rw [List.foldl_cons, List.foldl_cons, ih (size + c.utf8Size), ih (0 + c.utf8Size)]
      omega

@[simp] theorem byteSize_nil : byteSize [] = 0 := rfl

@[simp] theorem byteSize_cons (c : Char) (rest : List Char) :
    byteSize (c :: rest) = c.utf8Size + byteSize rest := by
  show (c :: rest).foldl _ 0 = _
  rw [List.foldl_cons, foldl_size, Nat.zero_add]

@[simp] theorem byteSize_append (a b : List Char) :
    byteSize (a ++ b) = byteSize a + byteSize b := by
  induction a with
  | nil => simp
  | cons c a ih => simp [ih, Nat.add_assoc]

/-- Letters are among what words go on with. -/
theorem isLetterOrNumber_of_isLetter {c : Char} (h : isLetter c = true) :
    isLetterOrNumber c = true := by
  unfold isLetter at h
  unfold isLetterOrNumber
  split at h
  · simp [Char.isAlphanum, *]
  · simp [*]

end Text

namespace Lexer

open Text

variable {rules : LexicalRules}

-- ============================================================= passing

/-- A beginning of the text of some size is passed over, and the rest is
left. -/
def Passes (text : List Char) (size : Nat) (rest : List Char) : Prop :=
  ∃ passed, text = passed ++ rest ∧ size = byteSize passed

theorem Passes.none (text : List Char) : Passes text 0 text :=
  ⟨[], rfl, rfl⟩

/-- What is passed goes before what is passed afterwards. -/
theorem Passes.behind (passed : List Char) {text rest : List Char} {size : Nat}
    (h : Passes text size rest) : Passes (passed ++ text) (byteSize passed + size) rest := by
  obtain ⟨more, rfl, rfl⟩ := h
  exact ⟨passed ++ more, by simp, by simp⟩

theorem Passes.cons (c : Char) {text rest : List Char} {size : Nat} (h : Passes text size rest) :
    Passes (c :: text) (c.utf8Size + size) rest := by
  obtain ⟨more, rfl, rfl⟩ := h
  exact ⟨c :: more, rfl, by simp⟩

theorem Passes.pair (c d : Char) {text rest : List Char} {size : Nat} (h : Passes text size rest) :
    Passes (c :: d :: text) (c.utf8Size + d.utf8Size + size) rest := by
  rw [Nat.add_assoc]
  exact (h.cons d).cons c

/-- What is left is shorter if something has been passed. -/
theorem Passes.length_lt {text rest : List Char} {size : Nat} (h : Passes text size rest)
    (hsize : 0 < size) : rest.length < text.length := by
  obtain ⟨passed, rfl, rfl⟩ := h
  cases passed with
  | nil => simp at hsize
  | cons c passed =>
      rw [List.cons_append, List.length_cons, List.length_append]
      omega

theorem Passes.length_le {text rest : List Char} {size : Nat} (h : Passes text size rest) :
    rest.length ≤ text.length := by
  obtain ⟨passed, rfl, rfl⟩ := h
  simp

theorem passes_span (p : Char → Bool) (text : List Char) :
    Passes text (byteSize (text.span p).1) (text.span p).2 := by
  rw [List.span_eq_takeWhile_dropWhile]
  exact ⟨text.takeWhile p, List.takeWhile_append_dropWhile.symm, rfl⟩

/-- Blanks and comments are passed over. -/
theorem skip_eq_ok {skipping : Skipping} {position after : Nat} {text rest : List Char}
    (h : skip rules skipping position text = .ok (after, rest)) :
    ∃ size, after = position + size ∧ Passes text size rest := by
  have hbehind : ∀ (passed : List Char) {before position : Nat} {text : List Char},
      before = position + byteSize passed →
      (∃ size, after = before + size ∧ Passes text size rest) →
      ∃ size, after = position + size ∧ Passes (passed ++ text) size rest := by
    intro passed before position text hbefore hrest
    obtain ⟨size, rfl, hpasses⟩ := hrest
    refine ⟨byteSize passed + size, ?_, hpasses.behind passed⟩
    rw [hbefore, Nat.add_assoc]
  fun_induction skip rules skipping position text
  case case2 c _ _ ih => exact hbehind [c] (by simp) (ih h)
  case case3 ih => exact hbehind ['-', '-'] rfl (ih h)
  case case4 ih => exact hbehind ['/', '*'] rfl (ih h)
  case case5 ih => exact hbehind ['#'] rfl (ih h)
  case case9 c _ ih => exact hbehind [c] (by simp) (ih h)
  case case10 => cases h
  case case11 ih => exact hbehind ['*', '/'] rfl (ih h)
  case case12 c _ _ ih => exact hbehind [c] (by simp) (ih h)
  all_goals
    cases h
    exact ⟨0, rfl, .none _⟩

-- ============================================================ scanners

/-- What has been scanned at the beginning of a text: some of its
characters, with their bytes counted. -/
structure Reading.Of {α : Type} (text : List Char) (r : Reading α) : Prop where
  passes : Passes text r.size r.rest
  size_pos : 0 < r.size

theorem Reading.Of.after {α : Type} {text : List Char} {r : Reading α} (c : Char)
    (h : Passes text r.size r.rest) : (r.after c.utf8Size).Of (c :: text) :=
  ⟨h.cons c, Nat.add_pos_left c.utf8Size_pos _⟩

/-- A scanner that starts with a character of its own. -/
theorem Reading.of_span {p : Char → Bool} {c : Char} (hc : p c = true) (rest : List Char) :
    0 < byteSize ((c :: rest).span p).1 := by
  rw [List.span_eq_takeWhile_dropWhile, List.takeWhile_cons_of_pos hc, byteSize_cons]
  exact Nat.add_pos_left c.utf8Size_pos _

theorem identifierContent_passes {close : Char} {text : List Char} {r : Reading (List Char)}
    (h : identifierContent close text = some r) : Passes text r.size r.rest := by
  fun_induction identifierContent close text generalizing r
  all_goals try cases h
  case case2 => exact (Passes.none []).cons close
  case case4 rest ih =>
    obtain ⟨content, hcontent, rfl⟩ := Option.map_eq_some_iff.mp h
    exact (ih hcontent).pair close close
  case case5 d rest _ => exact (Passes.none (d :: rest)).cons close
  case case6 c d rest _ ih =>
    obtain ⟨content, hcontent, rfl⟩ := Option.map_eq_some_iff.mp h
    exact (ih hcontent).cons c

theorem stringContent_passes {backslashes : Bool} {quote : Char} {text : List Char}
    {r : Reading (List Char)} (h : stringContent backslashes quote text = some r) :
    Passes text r.size r.rest := by
  fun_induction stringContent backslashes quote text generalizing r
  all_goals try cases h
  case case2 => exact (Passes.none []).cons quote
  case case4 rest ih =>
    obtain ⟨content, hcontent, rfl⟩ := Option.map_eq_some_iff.mp h
    exact (ih hcontent).pair quote quote
  case case5 d rest _ => exact (Passes.none (d :: rest)).cons quote
  case case6 c d rest _ _ ih =>
    obtain ⟨content, hcontent, rfl⟩ := Option.map_eq_some_iff.mp h
    exact (ih hcontent).pair c d
  case case7 c d rest _ _ ih =>
    obtain ⟨content, hcontent, rfl⟩ := Option.map_eq_some_iff.mp h
    exact (ih hcontent).cons c

theorem scanIdentifier_passes {close : Char} {text : List Char} {r : Reading Token}
    (h : scanIdentifier close text = .ok r) : Passes text r.size r.rest := by
  unfold scanIdentifier at h
  split at h
  · cases h
  · cases h
  · next content size rest _ hcontent =>
      cases h
      exact identifierContent_passes hcontent

theorem scanString_passes {quote : Char} {text : List Char} {r : Reading Token}
    (h : scanString rules quote text = .ok r) : Passes text r.size r.rest := by
  unfold scanString at h
  split at h
  · cases h
  · next content hcontent =>
      cases h
      exact stringContent_passes hcontent

theorem scanParameter_passes {mark : Char} {text : List Char} {r : Reading Token}
    (h : scanParameter mark text = .ok r) : Passes text r.size r.rest := by
  unfold scanParameter at h
  split at h
  · cases h
  · split at h
    · cases h
      exact passes_span _ _
    · cases h

theorem signAt?_of {text : List Char} {r : Reading Sign} (h : signAt? text = some r) :
    r.Of text := by
  unfold signAt? at h
  split at h
  all_goals cases h
  all_goals first
    | exact ⟨⟨[_], rfl, rfl⟩, Nat.zero_lt_succ _⟩
    | exact ⟨⟨[_, _], rfl, rfl⟩, Nat.zero_lt_succ _⟩

theorem scanWord_of {c : Char} {rest : List Char} {r : Reading Token} (hc : startsWord c = true)
    (h : scanWord (c :: rest) = .ok r) : r.Of (c :: rest) := by
  have hcontinues : continuesWord c = true := by
    unfold startsWord at hc
    unfold continuesWord
    rcases Bool.or_eq_true_iff.mp hc with hletter | hline
    · simp [isLetterOrNumber_of_isLetter hletter]
    · simp [hline]
  have hof : ∀ token : Token, (⟨token, _, _⟩ : Reading Token).Of (c :: rest) :=
    fun _ => ⟨passes_span continuesWord _, Reading.of_span hcontinues rest⟩
  unfold scanWord at h
  dsimp only at h
  split at h
  · cases h
    exact hof _
  · cases h
    exact hof _

theorem spanFraction_append (text : List Char) :
    (spanFraction text).1 ++ (spanFraction text).2 = text := by
  unfold spanFraction
  split
  · simp [List.span_eq_takeWhile_dropWhile]
  · rfl

theorem spanExponent_append (text : List Char) :
    (spanExponent text).1 ++ (spanExponent text).2 = text := by
  unfold spanExponent
  split
  · rfl
  · split
    · rfl
    · split
      next sign after hsign =>
        simp only [List.span_eq_takeWhile_dropWhile, List.cons_append, List.append_assoc,
          List.takeWhile_append_dropWhile]
        split at hsign <;> (cases hsign; rfl)

/-- A number is made of its three parts, each of which may be empty. -/
theorem scanNumber_eq (text : List Char) :
    scanNumber text =
      let whole := text.span isDigit
      let fraction := spanFraction whole.2
      let exponent := spanExponent fraction.2
      .ok ⟨.number (.ofList (whole.1 ++ fraction.1 ++ exponent.1)),
        byteSize (whole.1 ++ fraction.1 ++ exponent.1), exponent.2⟩ := rfl

theorem scanNumber_of {c : Char} {rest : List Char} {r : Reading Token} (hc : isDigit c = true)
    (h : scanNumber (c :: rest) = .ok r) : r.Of (c :: rest) := by
  have hpos := Reading.of_span hc rest
  have hwhole : ((c :: rest).span isDigit).1 ++ ((c :: rest).span isDigit).2 = c :: rest := by
    simp [List.span_eq_takeWhile_dropWhile]
  rw [scanNumber_eq] at h
  generalize (c :: rest).span isDigit = whole at h hpos hwhole
  obtain rfl := Except.ok.inj h
  refine ⟨⟨_, ?_, rfl⟩, ?_⟩
  · simp only [List.append_assoc, spanExponent_append, spanFraction_append, hwhole]
  · simp only [byteSize_append]
    omega

/-- Whatever is scanned has a character. -/
theorem scan_of {c : Char} {rest : List Char} {r : Reading Token}
    (h : scan rules c rest = .ok r) : r.Of (c :: rest) := by
  have hopened : ∀ {scanned : Scanned},
      (∀ r : Reading Token, scanned = .ok r → Passes rest r.size r.rest) →
      scanned.map (.after c.utf8Size) = .ok r → r.Of (c :: rest) := by
    intro scanned hpasses hscanned
    cases scanned with
    | error e => cases hscanned
    | ok inner =>
        cases hscanned
        exact Reading.Of.after c (hpasses inner rfl)
  unfold scan at h
  dsimp only at h
  split_ifs at h
  · exact hopened (fun _ => scanString_passes) h
  · exact hopened (fun _ => scanString_passes) h
  · exact hopened (fun _ => scanIdentifier_passes) h
  · exact hopened (fun _ => scanIdentifier_passes) h
  · exact hopened (fun _ => scanIdentifier_passes) h
  · exact hopened (fun _ => scanParameter_passes) h
  · next hdigit => exact scanNumber_of hdigit h
  · next hword => exact scanWord_of hword h
  · split at h
    · next sign hsign =>
        cases h
        exact ⟨(signAt?_of hsign).passes, (signAt?_of hsign).size_pos⟩
    · cases h

-- =========================================================== the whole

/-- A text at a position is cut into tokens, up to its end or up to a
failure. -/
inductive Cuts (rules : LexicalRules) :
    Nat → List Char → List Lexeme → Option Failure → Prop
  | finish {position after : Nat} {text : List Char}
      (h : skip rules .blanks position text = .ok (after, [])) : Cuts rules position text [] none
  | comment {position start : Nat} {text : List Char}
      (h : skip rules .blanks position text = .error start) :
      Cuts rules position text [] (some ⟨start, .unterminatedComment⟩)
  | fault {position after : Nat} {text rest : List Char} {c : Char} {fault : Malformed}
      (h : skip rules .blanks position text = .ok (after, c :: rest))
      (hscan : scan rules c rest = .error fault) :
      Cuts rules position text [] (some ⟨after, fault⟩)
  | token {position after : Nat} {text rest : List Char} {c : Char} {r : Reading Token}
      {lexemes : List Lexeme} {failure : Option Failure}
      (h : skip rules .blanks position text = .ok (after, c :: rest))
      (hscan : scan rules c rest = .ok r)
      (hrest : Cuts rules (after + r.size) r.rest lexemes failure) :
      Cuts rules position text (⟨after, r.value⟩ :: lexemes) failure

/-- More steps than there are characters are enough. -/
theorem cuts_lexWithin {count position : Nat} {text : List Char} (h : text.length < count) :
    Cuts rules position text (lexWithin rules count position text).lexemes
      (lexWithin rules count position text).failure := by
  induction count generalizing position text with
  | zero => exact absurd h (Nat.not_lt_zero _)
  | succ count ih =>
      unfold lexWithin
      split
      · next start hskip => exact .comment hskip
      · next hskip => exact .finish hskip
      · next after c rest hskip =>
          split
          · next fault hscan => exact .fault hskip hscan
          · next token size rest' hscan =>
              obtain ⟨_, -, hpasses⟩ := skip_eq_ok hskip
              have hof := scan_of hscan
              have hshorter : rest'.length < (c :: rest).length :=
                hof.passes.length_lt hof.size_pos
              have hle := hpasses.length_le
              have henough : rest'.length < count := by omega
              exact .token hskip hscan (ih henough)

/-- A text is cut in one way only. -/
theorem Cuts.unique {position : Nat} {text : List Char} {lexemes lexemes' : List Lexeme}
    {failure failure' : Option Failure} (h : Cuts rules position text lexemes failure)
    (h' : Cuts rules position text lexemes' failure') :
    lexemes = lexemes' ∧ failure = failure' := by
  induction h generalizing lexemes' failure' with
  | finish hskip => cases h' <;> simp_all
  | comment hskip => cases h' <;> simp_all
  | fault hskip hscan => cases h' <;> simp_all
  | token hskip hscan hrest ih =>
      cases h' with
      | finish hskip' => simp_all
      | comment hskip' => simp_all
      | fault hskip' hscan' => simp_all
      | token hskip' hscan' hrest' =>
          rw [hskip] at hskip'
          cases hskip'
          rw [hscan] at hscan'
          cases hscan'
          obtain ⟨rfl, rfl⟩ := ih hrest'
          exact ⟨rfl, rfl⟩

theorem cuts_lex (rules : LexicalRules) (text : String) :
    Cuts rules 0 text.toList (lex rules text).lexemes (lex rules text).failure :=
  cuts_lexWithin (Nat.lt_succ_self _)

/-- How a text is cut is what `lex` finds. -/
theorem cuts_iff {text : String} {lexemes : List Lexeme} {failure : Option Failure} :
    Cuts rules 0 text.toList lexemes failure ↔ lex rules text = ⟨lexemes, failure⟩ := by
  have hlex := cuts_lex rules text
  constructor
  · intro h
    obtain ⟨rfl, rfl⟩ := hlex.unique h
    rfl
  · intro h
    rw [h] at hlex
    exact hlex

end Lexer

end DialectDb
