/-
Every token that a text can be cut into can be written in every dialect:
the tokens of a list, written with blanks between them, are what the text
is cut into again. What stands between quotes may be anything; quotes
are doubled in it, and backslashes where they escape. Identifiers stand
between backticks where double quotes are for strings.

A number or a parameter is written as it was found. A scanner that found
it finds it again, whatever was behind it.
-/
import DialectDb.Dialect.Catalog
import DialectDb.Proofs.Scanning

namespace DialectDb

open Lexer

/-- A token as it is written in a dialect. -/
def Token.written (rules : LexicalRules) : Token → String
  | .number text => text
  | .string text => "'" ++ escaped rules.backslashEscapes '\'' text ++ "'"
  | .ident name =>
    if rules.doubleQuoteStrings then "`" ++ Text.doubled '`' name ++ "`"
    else "\"" ++ Text.doubled '"' name ++ "\""
  | .keyword word => word.text
  | .parameter name => "@" ++ name
  | .sign mark => mark.text

/-- A token that some text is cut into, in some dialect. -/
def Token.Occurs (token : Token) : Prop :=
  ∃ rules text, ∃ l ∈ (lex rules text).lexemes, l.token = token

/-- Tokens as they are written in a dialect, with blanks between them. -/
def written (rules : LexicalRules) (tokens : List Token) : String :=
  " ".intercalate (tokens.map (Token.written rules))

namespace Lexer

variable {rules : LexicalRules}

-- ====================================================== what tokens are

/-- What is known of the tokens that texts are cut into. -/
def Proper : Token → Prop
  | .number text =>
    ∃ c chars size, text.toList = c :: chars ∧ Text.isDigit c = true ∧
      ∀ rest, (∀ d ∈ rest.head?, breaks d = true) →
        scanNumber (c :: (chars ++ rest)) = .ok ⟨.number text, size, rest⟩
  | .ident name => name ≠ ""
  | .parameter name => isIdentifier name = true
  | _ => True

theorem lowerChar_ne_nil (c : Char) : Text.lowerChar c ≠ [] := by
  unfold Text.lowerChar Text.caseImage
  split
  · exact List.cons_ne_nil _ _
  · split
    · next codes hlookup =>
        obtain ⟨before, after, htable, -⟩ := List.lookup_eq_some_iff.mp hlookup
        have hall : ∀ entry ∈ Unicode.lowerSequences, entry.2 ≠ [] := by decide
        have hcodes := hall (c.toNat, codes) (htable ▸ by simp)
        simpa using hcodes
    · exact List.cons_ne_nil _ _

/-- A word is not empty, so neither is it in lower case. -/
theorem proper_wordToken {c : Char} {letters : List Char} : Proper (wordToken (c :: letters)) := by
  unfold wordToken
  dsimp only
  split
  · trivial
  · intro hempty
    rw [String.ofList_eq_empty_iff] at hempty
    exact lowerChar_ne_nil c (List.append_eq_nil_iff.mp hempty).1

/-- The text of a number is what has been scanned. -/
theorem scanNumber_text {text : List Char} {r : Reading Token} (h : scanNumber text = .ok r) :
    ∃ passed, text = passed ++ r.rest ∧ r.value = .number (.ofList passed) := by
  rw [scanNumber_eq] at h
  cases h
  refine ⟨_, ?_, rfl⟩
  simp only [List.append_assoc, spanExponent_append, spanFraction_append, span_append_self]

theorem proper_scanNumber {c : Char} {rest : List Char} {r : Reading Token}
    (hc : Text.isDigit c = true) (h : scanNumber (c :: rest) = .ok r) : Proper r.value := by
  obtain ⟨passed, hpassed, htext, hread⟩ := scanNumber_local hc h
  obtain ⟨d, chars, rfl⟩ := List.exists_cons_of_ne_nil hpassed
  obtain ⟨text, htext', hvalue⟩ := scanNumber_text h
  obtain rfl := List.append_cancel_right (htext.symm.trans htext')
  obtain ⟨rfl, -⟩ := List.cons.inj htext
  rw [hvalue]
  refine ⟨c, chars, r.size, by simp, hc, fun rest' hrest' => ?_⟩
  have hread := hread rest' (.inr hrest')
  rw [hvalue] at hread
  exact hread

theorem proper_scanParameter {mark : Char} {text : List Char} {r : Reading Token}
    (h : scanParameter mark text = .ok r) : Proper r.value := by
  cases text with
  | nil => cases h
  | cons c rest =>
      unfold scanParameter at h
      dsimp only at h
      split at h
      · next hc =>
          rw [List.span_eq_takeWhile_dropWhile,
            List.takeWhile_cons_of_pos (continuesParameter_of_startsWord hc)] at h
          cases h
          simp [Proper, isIdentifier, hc, List.all_takeWhile]
      · cases h

theorem proper_scanIdentifier {close : Char} {text : List Char} {r : Reading Token}
    (h : scanIdentifier close text = .ok r) : Proper r.value := by
  unfold scanIdentifier at h
  split at h
  · cases h
  · cases h
  · next content size rest hnil _ =>
      cases h
      intro hempty
      exact hnil (String.ofList_eq_empty_iff.mp hempty)

theorem proper_opened {c : Char} {scanned : Scanned} {r : Reading Token}
    (hproper : ∀ r : Reading Token, scanned = .ok r → Proper r.value)
    (h : scanned.map (.after c.utf8Size) = .ok r) : Proper r.value := by
  cases scanned with
  | error fault => cases h
  | ok inner =>
      cases h
      exact hproper inner rfl

/-- What is scanned is proper, whatever character begins it. -/
theorem proper_scan {c : Char} {rest : List Char} {r : Reading Token}
    (h : scan rules c rest = .ok r) : Proper r.value := by
  cases scannedBy rules c with
  | string _ hscan =>
      rw [hscan] at h
      refine proper_opened (fun r hr => ?_) h
      unfold scanString at hr
      split at hr <;> cases hr
      trivial
  | ident _ hscan =>
      rw [hscan] at h
      exact proper_opened (fun _ => proper_scanIdentifier) h
  | parameter hscan =>
      rw [hscan] at h
      exact proper_opened (fun _ => proper_scanParameter) h
  | number hdigit hscan =>
      rw [hscan] at h
      exact proper_scanNumber hdigit h
  | word hstarts hscan =>
      rw [hscan, scanWord_eq, List.span_eq_takeWhile_dropWhile,
        List.takeWhile_cons_of_pos (continuesWord_of_startsWord hstarts)] at h
      cases h
      exact proper_wordToken
  | sign hscan =>
      rw [hscan] at h
      unfold scanSign at h
      split at h <;> cases h
      trivial

theorem Cuts.proper {position : Nat} {text : List Char} {lexemes : List Lexeme}
    {failure : Option Failure} (h : Cuts rules position text lexemes failure) :
    ∀ l ∈ lexemes, Proper l.token := by
  induction h with
  | finish => nofun
  | comment => nofun
  | fault => nofun
  | token _ hscan _ ih => exact List.forall_mem_cons.mpr ⟨proper_scan hscan, ih⟩

-- ======================================================= written tokens

theorem begins_backticks (hallowed : rules.backtickIdentifiers = true) {name : String}
    (hname : name ≠ "") {rest : List Char} (hrest : Ends rest) :
    Begins rules ('`' :: ((Text.doubled '`' name).toList ++ '`' :: rest)) (.ident name) rest := by
  have hquote : rest.head? ≠ some '`' := fun hhead => absurd (hrest _ hhead) (by decide)
  obtain ⟨size, hscan⟩ := scanIdentifier_doubled '`' hname hquote
  refine ⟨'`', _, Char.utf8Size '`' + size, rfl,
    skip_of_ne rfl (by decide) (by decide) (by decide) _, ?_⟩
  have hopens : scan rules '`' ((Text.doubled '`' name).toList ++ '`' :: rest) =
      (scanIdentifier '`' ((Text.doubled '`' name).toList ++ '`' :: rest)).map
        (.after (Char.utf8Size '`')) := by simp [scan, hallowed]
  rw [hopens, hscan]
  rfl

/-- A token is scanned where it is written. -/
theorem begins_written
    (hquotes : rules.doubleQuoteStrings = true → rules.backtickIdentifiers = true)
    {token : Token} (h : Proper token) {rest : List Char} (hrest : Ends rest) :
    Begins rules ((token.written rules).toList ++ rest) token rest := by
  cases token with
  | number text =>
      obtain ⟨c, chars, size, htext, hdigit, hread⟩ := h
      have hbreaks : ∀ d ∈ rest.head?, breaks d = true := fun d hd => by rw [hrest d hd]; rfl
      rw [Token.written, htext]
      exact begins_scanned hdigit (hread rest hbreaks)
  | string text => simpa [Token.written] using @begins_escaped rules text _ hrest
  | ident name =>
      cases hstrings : rules.doubleQuoteStrings with
      | true => simpa [Token.written, hstrings] using begins_backticks (hquotes hstrings) h hrest
      | false =>
          have hspelling : (Token.ident name).written rules = (Token.ident name).spelling := by
            simp [Token.written, Token.spelling, hstrings]
          rw [hspelling]
          exact begins_ident hstrings h hrest
  | keyword word => exact begins_keyword word hrest
  | parameter name => exact begins_parameter h hrest
  | sign mark => exact begins_sign mark hrest

/-- Whatever tokens occur in texts, in whatever order: written in a
dialect they are what the text is cut into, up to its end. -/
theorem lex_written {dialect : Dialect} (hdialect : dialect ∈ Dialect.all) {tokens : List Token}
    (h : ∀ token ∈ tokens, token.Occurs) :
    ∃ lexemes, lexemes.map (·.token) = tokens ∧
      lex dialect.lexical (written dialect.lexical tokens) = ⟨lexemes, none⟩ := by
  have hquotes : ∀ d ∈ Dialect.all, d.lexical.doubleQuoteStrings = true →
      d.lexical.backtickIdentifiers = true := by decide
  have hbegins : ∀ token ∈ tokens, ∀ rest, Ends rest →
      Begins dialect.lexical ((token.written dialect.lexical).toList ++ rest) token rest := by
    intro token htoken rest hrest
    obtain ⟨rules, text, l, hl, rfl⟩ := h token htoken
    have hproper := (cuts_lex rules text).proper l hl
    exact begins_written (hquotes dialect hdialect) hproper hrest
  obtain ⟨lexemes, htokens, hcuts⟩ := cuts_separated hbegins 0
  exact ⟨lexemes, htokens, cuts_iff.mp hcuts⟩

/-- So names with backticks, strings with quotes, backslashes and signs of
comments, numbers that are none and signs in a row are read back. -/
theorem lex_written_awkward :
    let tokens := [.ident "a`b\"", .string "it's \\ -- /* #\n", .number "1.e+", .parameter "É1",
      .sign .minus, .sign .minus, .sign .slash, .sign .asterisk, .keyword .SELECT, .ident "select"]
    Dialect.mySql ∈ Dialect.all ∧ (∀ token ∈ tokens, token.Occurs) ∧
      ∃ lexemes, lexemes.map (·.token) = tokens ∧
        lex Dialect.mySql.lexical (written Dialect.mySql.lexical tokens) = ⟨lexemes, none⟩ := by
  intro tokens
  have hdialect : Dialect.mySql ∈ Dialect.all := by decide
  have hoccurs : ∀ token ∈ tokens, token.Occurs := by
    have hchecked : (tokens.all fun token =>
        (lex Dialect.mySql.lexical
          "`a``b\"` 'it''s \\\\ -- /* #\n' 1.e+ :É1 - - / * Select `select`").lexemes.any
            (·.token = token)) = true := by decide +kernel
    intro token htoken
    obtain ⟨l, hl, htoken⟩ := List.any_eq_true.mp (List.all_eq_true.mp hchecked token htoken)
    exact ⟨_, _, l, hl, of_decide_eq_true htoken⟩
  exact ⟨hdialect, hoccurs, lex_written hdialect hoccurs⟩

end Lexer

end DialectDb
