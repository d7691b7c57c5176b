/-
What the shell prints is cut into tokens again. A piece of text `Lexes` to
some tokens if it is cut into them wherever something stands behind it
that no token goes on with; such pieces are put together, with blanks or
without. Names and values are pieces of this kind as they are printed.

Not every name is printed as it is found. One without quotes is put into
lower case when it is read (`readName`), and one between double quotes is
read as a string where the dialect has double quotes for strings. So is a
string read otherwise where a backslash in it escapes what is behind it.
-/
import DialectDb.Proofs.Gaps
import DialectDb.Proofs.ShownNumbers
import DialectDb.Schema

namespace DialectDb

namespace Lexer

open Text

variable {rules : LexicalRules}

-- ================================================================ pieces

/-- A text is cut into these tokens, up to its end. -/
def CutInto (rules : LexicalRules) (text : List Char) (tokens : List Token) : Prop :=
  ∀ position, ∃ lexemes, lexemes.map (·.token) = tokens ∧ Cuts rules position text lexemes none

/-- A piece of a text is cut into these tokens, whatever stands behind it,
as long as no token goes on with that. -/
def Lexes (rules : LexicalRules) (text : List Char) (tokens : List Token) : Prop :=
  ∀ rest more, (∀ c ∈ rest.head?, breaks c = true) → CutInto rules rest more →
    CutInto rules (text ++ rest) (tokens ++ more)

theorem CutInto.blank {c : Char} (hc : isBlank c = true) {text : List Char} {tokens : List Token}
    (h : CutInto rules text tokens) : CutInto rules (c :: text) tokens := by
  intro position
  obtain ⟨lexemes, htokens, hcuts⟩ := h (position + c.utf8Size)
  refine ⟨lexemes, htokens, ?_⟩
  have hskip : skip rules .blanks position (c :: text) =
      skip rules .blanks (position + c.utf8Size) text := skip_blank hc position text
  cases hcuts with
  | finish h => exact .finish (hskip.trans h)
  | token h hscan hrest => exact .token (hskip.trans h) hscan hrest

namespace Lexes

variable {a b : List Char} {s t : List Token}

theorem nil : Lexes rules [] [] :=
  fun _ _ _ h => h

/-- Pieces are put together where the second begins with what no token
goes on with. -/
theorem append (ha : Lexes rules a s) (hb : Lexes rules b t)
    (hbreaks : ∀ c ∈ b.head?, breaks c = true) : Lexes rules (a ++ b) (s ++ t) := by
  intro rest more hrest hcut
  have hnext : ∀ c ∈ (b ++ rest).head?, breaks c = true := by
    cases b with
    | nil => exact hrest
    | cons d b => exact hbreaks
  rw [List.append_assoc, List.append_assoc]
  exact ha _ _ hnext (hb rest more hrest hcut)

theorem blank {c : Char} (hc : isBlank c = true) (h : Lexes rules a s) :
    Lexes rules (c :: a) s :=
  fun rest more hrest hcut => (h rest more hrest hcut).blank hc

/-- A piece with a blank between it and the one before. -/
theorem behind (ha : Lexes rules a s) {c : Char} (hc : isBlank c = true) (hb : Lexes rules b t) :
    Lexes rules (a ++ c :: b) (s ++ t) := by
  refine ha.append (hb.blank hc) ?_
  rintro _ ⟨⟩
  rw [breaks, hc]
  rfl

theorem lex {text : String} (h : Lexes rules text.toList s) :
    ∃ lexemes, lexemes.map (·.token) = s ∧ lex rules text = ⟨lexemes, none⟩ := by
  obtain ⟨lexemes, htokens, hcuts⟩ := h [] [] nofun (fun _ => ⟨[], rfl, .finish rfl⟩) 0
  rw [List.append_nil] at htokens hcuts
  exact ⟨lexemes, htokens, cuts_iff.mp hcuts⟩

end Lexes

/-- A token that is found at the end of a text is found wherever no token
goes on behind it. -/
theorem Begins.lexes {text : List Char} {token : Token} (h : Begins rules text token []) :
    Lexes rules text [token] := by
  obtain ⟨c, tail, size, rfl, hskip, hscan⟩ := h
  obtain ⟨passed, htail, hlocal⟩ := scan_local hscan
  obtain rfl : tail = passed := by rw [htail, List.append_nil]
  obtain ⟨gap, -, hgap, -, hstops⟩ := skip_eq_cons (hskip 0)
  intro rest more hrest hcut
  have hfollows : Follows tail (tail ++ rest) := by
    have hbehind : Follows (tail ++ []) (tail ++ rest) := Follows.behind (.inr hrest) tail
    rwa [List.append_nil] at hbehind
  have hbegins : Begins rules (c :: (tail ++ rest)) token rest :=
    ⟨c, tail ++ rest, size, rfl, (hstops.follows hfollows).skip, hlocal rest (.inr hrest)⟩
  exact hbegins.cuts hcut

-- ================================================================= tokens

/-- Nothing behind a token is an end of it. -/
theorem ends_nil : Ends [] := by
  simp [Ends]

theorem lexes_sign (mark : Sign) : Lexes rules mark.text.toList [.sign mark] := by
  have hbegins : Begins rules (mark.text.toList ++ []) (.sign mark) [] := begins_sign mark ends_nil
  rw [List.append_nil] at hbegins
  exact hbegins.lexes

theorem lexes_keyword (word : Keyword) : Lexes rules word.text.toList [.keyword word] := by
  have hbegins : Begins rules (word.text.toList ++ []) (.keyword word) [] :=
    begins_keyword word ends_nil
  rw [List.append_nil] at hbegins
  exact hbegins.lexes

/-- A minus is a sign of its own before a digit. -/
theorem Lexes.minus {text : List Char} {tokens : List Token} (h : Lexes rules text tokens)
    (hdigit : ∀ c ∈ text.head?, isDigit c = true) (hne : text ≠ []) :
    Lexes rules ('-' :: text) (.sign .minus :: tokens) := by
  intro rest more hrest hcut
  obtain ⟨c, chars, rfl⟩ := List.exists_cons_of_ne_nil hne
  have hc : c ≠ '-' := (Double.digit_ne_sign (hdigit c rfl)).1
  have hstops : Stops rules '-' (c :: (chars ++ rest)) :=
    ⟨rfl, fun _ heq => hc (Option.some.inj heq), nofun, nofun⟩
  have hbegins : Begins rules ('-' :: c :: (chars ++ rest)) (.sign .minus) (c :: (chars ++ rest)) :=
    ⟨'-', _, 1, rfl, hstops.skip, rfl⟩
  exact hbegins.cuts (h rest more hrest hcut)

/-- An identifier without quotes is a word. -/
theorem lexes_word {name : String} (h : isIdentifier name = true) :
    Lexes rules name.toList [wordToken name.toList] := by
  unfold isIdentifier at h
  split at h
  · cases h
  · next c chars hchars =>
      obtain ⟨hstarts, hcontinues⟩ := Bool.and_eq_true_iff.mp h
      have hall : (c :: chars).all continuesWord = true := by
        refine List.all_eq_true.mpr (List.forall_mem_cons.mpr ⟨continuesWord_of_startsWord hstarts,
          fun d hd => ?_⟩)
        have hd := List.all_eq_true.mp hcontinues d hd
        unfold continuesParameter at hd
        simp [continuesWord, hd]
      have hspan : (c :: chars ++ []).span continuesWord = (c :: chars, []) :=
        span_append hall (by simp)
      rw [List.append_nil] at hspan
      have hscan : scan rules c chars =
          .ok ⟨wordToken (c :: chars), byteSize (c :: chars), []⟩ := by
        rw [scan_of_startsWord hstarts, scanWord_eq, hspan]
      have hblank : isBlank c = false := by
        by_contra hblank
        have hblank : isBlank c = true := by simpa using hblank
        have hbreaks : breaks c = true := by rw [breaks, hblank, Bool.true_or]
        have hword := continuesWord_of_startsWord hstarts
        rw [continuesWord_of_breaks hbreaks] at hword
        cases hword
      have hmarks := ne_of_marks (show marks.all (!startsWord ·) = true by decide) hstarts
      simp only [marks, List.forall_mem_cons] at hmarks
      obtain ⟨hline, hblock, hhash, -⟩ := hmarks
      rw [hchars]
      exact Begins.lexes ⟨c, chars, _, rfl, skip_of_ne hblank hline hblock hhash chars, hscan⟩

theorem lexes_number {text : String} {c : Char} {chars : List Char}
    (htext : text.toList = c :: chars) (hdigit : isDigit c = true)
    (hscan : scanNumber text.toList = .ok ⟨.number text, byteSize text.toList, []⟩) :
    Lexes rules text.toList [.number text] := by
  rw [htext] at hscan ⊢
  exact (begins_scanned hdigit hscan).lexes

-- ================================================================== names

/-- Whether a name is printed without quotes. -/
def writtenPlain (name : String) : Bool :=
  isIdentifier name && (Keyword.ofWord? (Text.lower name)).isNone

/-- A name as it is read from its written form: without quotes its letters
are put into lower case, one at a time. -/
def readName (name : String) : String :=
  if writtenPlain name then .ofList (name.toList.flatMap lowerChar) else name

/-- But for capital sigmas a word is put into lower case one letter at a
time. -/
theorem lowerAfter_eq {letters : List Char} (h : 'Σ' ∉ letters) (before : List Char) :
    lowerAfter before letters = letters.flatMap lowerChar := by
  induction letters generalizing before with
  | nil => rfl
  | cons c letters ih =>
      obtain ⟨hc, hletters⟩ := not_or.mp (mt List.mem_cons.mpr h)
      rw [lowerAfter, if_neg (Ne.symm hc), ih hletters, List.flatMap_cons]

/-- No keyword has a sigma in it. -/
theorem ofWord?_lower {name : String} (h : Keyword.ofWord? (Text.lower name) = none) :
    Keyword.ofWord? (.ofList (name.toList.flatMap lowerChar)) = none := by
  by_cases hsigma : 'Σ' ∈ name.toList
  · have hmem : 'σ' ∈ name.toList.flatMap lowerChar :=
      List.mem_flatMap.mpr ⟨'Σ', hsigma, by decide +kernel⟩
    have hwords : (Keyword.all.all fun word => !word.word.toList.contains 'σ') = true := by
      decide +kernel
    refine List.find?_eq_none.mpr fun word hword heq => ?_
    have hletters : word.word.toList = name.toList.flatMap lowerChar := by
      rw [eq_of_beq heq, String.toList_ofList]
    have hnone := List.all_eq_true.mp hwords word hword
    rw [hletters] at hnone
    simp [hmem] at hnone
  · rwa [← lowerAfter_eq hsigma []]

/-- A name is read from its written form, if double quotes are not for
strings or it is written without. -/
theorem lexes_writtenName {name : String} (hne : name ≠ "")
    (hquotes : writtenPlain name = false → rules.doubleQuoteStrings = false) :
    Lexes rules (writtenName name).toList [.ident (readName name)] := by
  have hwritten : writtenName name = if writtenPlain name = true then name
    else "\"" ++ Text.doubled '"' name ++ "\"" := rfl
  rw [hwritten, readName]
  cases hplain : writtenPlain name with
  | true =>
      obtain ⟨hidentifier, hkeyword⟩ := Bool.and_eq_true_iff.mp hplain
      have hword := ofWord?_lower (Option.isNone_iff_eq_none.mp hkeyword)
      have htoken : wordToken name.toList = .ident (.ofList (name.toList.flatMap lowerChar)) := by
        unfold wordToken
        dsimp only
        rw [hword]
      have hlexes : Lexes rules name.toList [wordToken name.toList] := lexes_word hidentifier
      rw [htoken] at hlexes
      exact hlexes
  | false =>
      have hbegins : Begins rules ((Token.ident name).spelling.toList ++ []) (.ident name) [] :=
        begins_ident (hquotes hplain) hne ends_nil
      rw [List.append_nil] at hbegins
      exact hbegins.lexes

-- ================================================================= values

/-- A string is read from its written form where it has no backslash or
backslashes stand for themselves. -/
theorem lexes_string {text : String}
    (h : rules.backslashEscapes = true → '\\' ∉ text.toList) :
    Lexes rules ("'" ++ Text.doubled '\'' text ++ "'").toList [.string text] := by
  have hescaped : escaped rules.backslashEscapes '\'' text = Text.doubled '\'' text := by
    rw [← escaped_false, escaped, escaped]
    congr 1
    refine List.flatMap_congr fun c hc => ?_
    have hbackslash : ¬(c = '\\' ∧ rules.backslashEscapes = true) := by
      rintro ⟨rfl, hescapes⟩
      exact h hescapes hc
    simp [escapedChar, hbackslash]
  have hbegins : Begins rules
      ('\'' :: ((escaped rules.backslashEscapes '\'' text).toList ++ ['\''])) (.string text) [] :=
    begins_escaped text ends_nil
  rw [hescaped] at hbegins
  rw [String.toList_append, String.toList_append]
  exact hbegins.lexes

/-- A number with a minus before it if it is negative. -/
def signed (negative : Bool) (text : String) : List Token :=
  if negative then [.sign .minus, .number text] else [.number text]

theorem lexes_signed {text : String} {c : Char} {chars : List Char}
    (htext : text.toList = c :: chars) (hdigit : isDigit c = true)
    (hscan : scanNumber text.toList = .ok ⟨.number text, byteSize text.toList, []⟩)
    (negative : Bool) :
    Lexes rules ((if negative then ['-'] else []) ++ text.toList) (signed negative text) := by
  have hnumber : Lexes rules text.toList [.number text] := lexes_number htext hdigit hscan
  cases negative with
  | false => exact hnumber
  | true =>
      refine hnumber.minus ?_ (by simp [htext])
      rw [htext]
      rintro _ ⟨⟩
      exact hdigit

theorem lexes_integer (i : Int) :
    Lexes rules (toString i).toList (signed (i < 0) (toString i.natAbs)) := by
  have hspan : ((toString i.natAbs).toList ++ []).span isDigit = ((toString i.natAbs).toList, []) :=
    span_append (isDigit_toString i.natAbs) (by simp)
  rw [List.append_nil] at hspan
  have hscan : scanNumber (toString i.natAbs).toList =
      .ok ⟨.number (toString i.natAbs), byteSize (toString i.natAbs).toList, []⟩ := by
    simp only [scanNumber_eq, hspan, spanFraction, spanExponent, List.append_nil,
      String.ofList_toList]
  obtain ⟨c, chars, hchars⟩ := List.exists_cons_of_ne_nil (Double.toString_ne_nil i.natAbs)
  have hdigit : isDigit c = true :=
    List.all_eq_true.mp (isDigit_toString i.natAbs) c (hchars ▸ List.mem_cons_self)
  have hlexes : Lexes rules (_ ++ (toString i.natAbs).toList) _ :=
    lexes_signed hchars hdigit hscan (i < 0)
  rw [Double.toString_int]
  simpa only [decide_eq_true_eq] using hlexes

theorem lexes_float {d : Double} (h : d.IsFinite) :
    Lexes rules d.text.toList (signed d.negative d.abs.text) := by
  obtain ⟨c, chars, htext, hdigit⟩ := h.abs.text_head
  have hscan : scanNumber (d.abs.text.toList ++ []) =
      .ok ⟨.number d.abs.text, byteSize d.abs.text.toList, []⟩ :=
    h.abs.scanNumber_text (by simp)
  rw [List.append_nil] at hscan
  have hlexes : Lexes rules (_ ++ d.abs.text.toList) _ :=
    lexes_signed htext hdigit hscan d.negative
  cases hnegative : d.negative with
  | true =>
      rw [hnegative] at hlexes
      rw [Double.text_negative h hnegative, String.toList_append]
      exact hlexes
  | false =>
      rw [hnegative, Double.abs_of_not_negative hnegative] at hlexes
      rw [Double.abs_of_not_negative hnegative]
      exact hlexes

end Lexer

/-- What a default has to be for its written form to be read as it. -/
def Value.IsShown (rules : LexicalRules) : Value → Prop
  | .integer i => i ≠ Int64.minValue
  | .float d => d.IsFinite
  | .string s => rules.backslashEscapes = true → '\\' ∉ s.toList
  | _ => True

instance (rules : LexicalRules) : DecidablePred (Value.IsShown rules)
  | .null | .boolean _ => .isTrue trivial
  | .integer i => inferInstanceAs (Decidable (i ≠ Int64.minValue))
  | .float d => inferInstanceAs (Decidable (d.magnitude < Double.infinityMagnitude))
  | .string s => inferInstanceAs (Decidable (rules.backslashEscapes = true → '\\' ∉ s.toList))

/-- A default as it is written, without the word before it. -/
def Value.shown : Value → String
  | .string s => "'" ++ Text.doubled '\'' s ++ "'"
  | v => v.text

/-- The tokens that it is read as. -/
def Value.shownTokens : Value → List Token
  | .null => [.keyword .NULL]
  | .boolean true => [.keyword .TRUE]
  | .boolean false => [.keyword .FALSE]
  | .integer i => Lexer.signed (i.toInt < 0) (toString i.toInt.natAbs)
  | .float d => Lexer.signed d.negative d.abs.text
  | .string s => [.string s]

theorem Value.lexes_shown {rules : LexicalRules} {v : Value} (h : v.IsShown rules) :
    Lexer.Lexes rules v.shown.toList v.shownTokens := by
  cases v with
  | null => exact Lexer.lexes_keyword .NULL
  | boolean b =>
      cases b with
      | true => exact Lexer.lexes_keyword .TRUE
      | false => exact Lexer.lexes_keyword .FALSE
  | integer i => exact Lexer.lexes_integer _
  | float d => exact Lexer.lexes_float h
  | string s => exact Lexer.lexes_string h

end DialectDb
