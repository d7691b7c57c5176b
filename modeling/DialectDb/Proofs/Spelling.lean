/-
Tokens written as a text, with blanks between them: strings and
identifiers stand between quotes, and a quote in them is doubled. Where
double quotes are for identifiers and a backslash stands for itself, the
text is cut into these tokens again.

A token is scanned up to its end, which is the end of the text or a blank
(`Ends`); no word, number or sign goes on there, and no quote is doubled.
-/
import DialectDb.Proofs.ExactDecimals
import DialectDb.Proofs.Lexing

namespace DialectDb

namespace Token

/-- A token as it is written. -/
def spelling : Token → String
  | .number text => text
  | .string text => "'" ++ Text.doubled '\'' text ++ "'"
  | .ident name => "\"" ++ Text.doubled '"' name ++ "\""
  | .keyword word => word.text
  | .parameter name => "@" ++ name
  | .sign mark => mark.text

/-- A token that is read where it is written: a number is an integer or
a decimal with an exponent, and names are names. -/
def IsSpellable : Token → Prop
  | .number text =>
    ∃ n : Nat, text = toString n ∨ ∃ places : Nat, text = toString n ++ "e-" ++ toString places
  | .ident name => name ≠ ""
  | .parameter name => Lexer.isIdentifier name = true
  | _ => True

end Token

/-- Tokens as they are written, with blanks between them. -/
def spelled (tokens : List Token) : String :=
  " ".intercalate (tokens.map Token.spelling)

namespace Lexer

variable {rules : LexicalRules}

-- ================================================================= ends

/-- The text has come to its end, or a blank follows. -/
def Ends (rest : List Char) : Prop :=
  ∀ c ∈ rest.head?, c = ' '

/-- Characters of a kind that a blank is not of do not go on there. -/
theorem Ends.stops {rest : List Char} (h : Ends rest) {p : Char → Bool} (hblank : p ' ' = false) :
    ∀ c ∈ rest.head?, p c = false := by
  intro c hc
  rw [h c hc]
  exact hblank

/-- A text begins with a token, and has a rest behind it. -/
def Begins (rules : LexicalRules) (text : List Char) (token : Token) (rest : List Char) : Prop :=
  ∃ c tail size, text = c :: tail ∧
    (∀ position, skip rules .blanks position (c :: tail) = .ok (position, c :: tail)) ∧
    scan rules c tail = .ok ⟨token, size, rest⟩

-- ===================================================== first characters

/-- No blank is skipped where there is none, and no comment. -/
theorem skip_of_ne {c : Char} (hblank : Text.isBlank c = false) (hline : c ≠ '-')
    (hblock : c ≠ '/') (hhash : c ≠ '#') (rest : List Char) (position : Nat) :
    skip rules .blanks position (c :: rest) = .ok (position, c :: rest) := by
  unfold skip
  rw [hblank, if_neg (by decide)]
  split
  · exact absurd rfl hline
  · exact absurd rfl hblock
  · exact absurd rfl hhash
  · rfl

/-- The characters that open a comment, a string, an identifier or a
parameter. -/
def marks : List Char :=
  ['-', '/', '#', '\'', '"', '`', '[', '@', ':']

/-- A printable character that is no mark is not skipped, and starts a
number or a word if it starts anything but a sign. -/
theorem scan_of_not_mark {c : Char} (hlow : 32 < c.val) (hhigh : c.val < 128)
    (hmarks : ∀ d ∈ marks, c ≠ d) (rest : List Char) :
    (∀ position, skip rules .blanks position (c :: rest) = .ok (position, c :: rest)) ∧
      (Text.isDigit c = true → scan rules c rest = scanNumber (c :: rest)) ∧
      (Text.isDigit c = false → startsWord c = true →
        scan rules c rest = scanWord (c :: rest)) := by
  have hspace : c ≠ ' ' := by
    rintro rfl
    exact absurd hlow (by decide)
  have hreturn : ¬c ≤ '\r' := Char.not_le.mpr (UInt32.lt_trans (by decide) hlow)
  have hblank : Text.isBlank c = false := by simp [Text.isBlank, hhigh, hspace, hreturn]
  simp only [marks, List.forall_mem_cons] at hmarks
  obtain ⟨hline, hblock, hhash, hquote, hdouble, hbacktick, hbracket, hat, hcolon, -⟩ := hmarks
  refine ⟨skip_of_ne hblank hline hblock hhash rest, fun hdigit => ?_, fun hdigit hword => ?_⟩
  · simp [scan, hquote, hdouble, hbacktick, hbracket, hat, hcolon, hdigit]
  · simp [scan, hquote, hdouble, hbacktick, hbracket, hat, hcolon, hdigit, hword]

/-- A kind of characters that no mark is of. -/
theorem ne_of_marks {kind : Char → Bool} (hmarks : marks.all (!kind ·) = true) {c : Char}
    (hc : kind c = true) : ∀ d ∈ marks, c ≠ d := by
  rintro d hd rfl
  have hother := List.all_eq_true.mp hmarks c hd
  rw [hc] at hother
  cases hother

-- ======================================================= between quotes

/-- The content of an identifier is read as that of a string without
backslashes. -/
theorem identifierContent_eq (quote : Char) (text : List Char) :
    identifierContent quote text = stringContent false quote text := by
  fun_induction identifierContent quote text with
  | case1 => rfl
  | case2 => simp [stringContent]
  | case3 c hc => simp [stringContent, hc]
  | case4 rest ih => simp [stringContent, ih]
  | case5 d rest hd => simp [stringContent, hd]
  | case6 c d rest hc ih => simp [stringContent, hc, ih]

/-- A character of a string as it is written: quotes are doubled, and so
are backslashes where they escape what is behind them. -/
def escapedChar (backslashes : Bool) (quote c : Char) : List Char :=
  if c = quote ∨ c = '\\' ∧ backslashes = true then [c, c] else [c]

def escaped (backslashes : Bool) (quote : Char) (text : String) : String :=
  .ofList (text.toList.flatMap (escapedChar backslashes quote))

theorem escaped_false (quote : Char) (text : String) :
    escaped false quote text = Text.doubled quote text := by
  have hchar : escapedChar false quote = fun c => if c = quote then [c, c] else [c] := by
    funext c
    simp [escapedChar]
  rw [escaped, hchar, Text.doubled]

/-- Up to the closing quote the content is read as what was written. -/
theorem stringContent_escaped {backslashes : Bool} {quote : Char}
    (hquote : backslashes = true → quote ≠ '\\') (text : String) {rest : List Char}
    (hrest : rest.head? ≠ some quote) :
    ∃ size, stringContent backslashes quote
        ((escaped backslashes quote text).toList ++ quote :: rest) =
      some ⟨text.toList, size, rest⟩ := by
  unfold escaped
  rw [String.toList_ofList]
  induction text.toList with
  | nil =>
      cases rest with
      | nil => exact ⟨quote.utf8Size, by simp [stringContent]⟩
      | cons d rest =>
          have hd : d ≠ quote := fun heq => hrest (congrArg some heq)
          exact ⟨quote.utf8Size, by simp [stringContent, hd]⟩
  | cons c chars ih =>
      obtain ⟨size, ih⟩ := ih
      rw [List.flatMap_cons]
      by_cases hc : c = quote
      · have hdoubled : escapedChar backslashes quote c = [quote, quote] := by
          simp [escapedChar, hc]
        refine ⟨quote.utf8Size + quote.utf8Size + size, ?_⟩
        rw [hdoubled]
        simp [stringContent, hc, ih, Reading.cons]
      by_cases hbackslash : c = '\\' ∧ backslashes = true
      · have hdoubled : escapedChar backslashes quote c = [c, c] := if_pos (.inr hbackslash)
        rw [hdoubled]
        obtain ⟨rfl, rfl⟩ := hbackslash
        refine ⟨Char.utf8Size '\\' + Char.utf8Size '\\' + size, ?_⟩
        simp [stringContent, hc, ih, Reading.cons, unescape]
      · have hplain : escapedChar backslashes quote c = [c] := if_neg (by simp [hc, hbackslash])
        rw [hplain, List.singleton_append, List.cons_append]
        generalize htail : chars.flatMap _ ++ quote :: rest = tail at ih ⊢
        cases tail with
        | nil => simp at htail
        | cons d tail =>
            exact ⟨c.utf8Size + size, by simp [stringContent, hc, hbackslash, ih, Reading.cons]⟩

/-- Up to the closing quote a name is read, where quotes are doubled. -/
theorem scanIdentifier_doubled (quote : Char) {name : String} (hname : name ≠ "")
    {rest : List Char} (hrest : rest.head? ≠ some quote) :
    ∃ size, scanIdentifier quote ((Text.doubled quote name).toList ++ quote :: rest) =
      .ok ⟨.ident name, size, rest⟩ := by
  obtain ⟨size, hcontent⟩ := @stringContent_escaped false _ nofun name _ hrest
  rw [escaped_false, ← identifierContent_eq] at hcontent
  refine ⟨size, ?_⟩
  unfold scanIdentifier
  rw [hcontent]
  split
  · next hnone => cases hnone
  · next hnil =>
      simp only [Option.some.injEq, Reading.mk.injEq] at hnil
      exact absurd (String.toList_eq_nil_iff.mp hnil.1) hname
  · next hsome =>
      cases hsome
      rw [String.ofList_toList]

/-- A string is scanned where it is written. -/
theorem begins_escaped (text : String) {rest : List Char} (hrest : Ends rest) :
    Begins rules ('\'' :: ((escaped rules.backslashEscapes '\'' text).toList ++ '\'' :: rest))
      (.string text) rest := by
  have hquote : rest.head? ≠ some '\'' := fun hhead => absurd (hrest _ hhead) (by decide)
  obtain ⟨size, hcontent⟩ := @stringContent_escaped rules.backslashEscapes '\'' (fun _ => by decide)
    text _ hquote
  refine ⟨'\'', _, Char.utf8Size '\'' + size, rfl,
    skip_of_ne rfl (by decide) (by decide) (by decide) _, ?_⟩
  simp only [scan, reduceIte, scanString, hcontent, String.ofList_toList]
  rfl

theorem begins_string (hbackslash : rules.backslashEscapes = false) (text : String)
    {rest : List Char} (hrest : Ends rest) :
    Begins rules ((Token.string text).spelling.toList ++ rest) (.string text) rest := by
  have hbegins := @begins_escaped rules text _ hrest
  rw [hbackslash, escaped_false] at hbegins
  simpa [Token.spelling] using hbegins

theorem begins_ident (hquotes : rules.doubleQuoteStrings = false) {name : String}
    (hname : name ≠ "") {rest : List Char} (hrest : Ends rest) :
    Begins rules ((Token.ident name).spelling.toList ++ rest) (.ident name) rest := by
  have hquote : rest.head? ≠ some '"' := fun hhead => absurd (hrest _ hhead) (by decide)
  obtain ⟨size, hscan⟩ := scanIdentifier_doubled '"' hname hquote
  refine ⟨'"', (Text.doubled '"' name).toList ++ '"' :: rest, Char.utf8Size '"' + size, ?_,
    skip_of_ne rfl (by decide) (by decide) (by decide) _, ?_⟩
  · simp [Token.spelling]
  · show Except.map _ (if rules.doubleQuoteStrings then _ else scanIdentifier '"' _) = _
    rw [hquotes, if_neg (by decide), hscan]
    rfl

-- ================================================================ words

theorem continuesParameter_of_startsWord {c : Char} (h : startsWord c = true) :
    continuesParameter c = true := by
  unfold startsWord at h
  unfold continuesParameter
  rcases Bool.or_eq_true_iff.mp h with hletter | hline
  · rw [Text.isLetterOrNumber_of_isLetter hletter, Bool.true_or]
  · rw [hline, Bool.or_true]

/-- Up to where it ends a parameter is scanned. -/
theorem begins_parameter {name : String} (h : isIdentifier name = true) {rest : List Char}
    (hrest : Ends rest) :
    Begins rules ((Token.parameter name).spelling.toList ++ rest) (.parameter name) rest := by
  unfold isIdentifier at h
  split at h
  · cases h
  · next c chars hchars =>
      obtain ⟨hstarts, hcontinues⟩ := Bool.and_eq_true_iff.mp h
      have hall : (c :: chars).all continuesParameter = true := by
        rw [List.all_cons, continuesParameter_of_startsWord hstarts, hcontinues]
        rfl
      have hspan := Text.span_append hall
        (hrest.stops (show continuesParameter ' ' = false from rfl))
      have hofList : String.ofList (c :: chars) = name := by rw [← hchars, String.ofList_toList]
      refine ⟨'@', name.toList ++ rest, Char.utf8Size '@' + Text.byteSize (c :: chars), ?_,
        skip_of_ne rfl (by decide) (by decide) (by decide) _, ?_⟩
      · simp [Token.spelling]
      · have hscan : scanParameter '@' (c :: (chars ++ rest)) =
            .ok ⟨.parameter name, Text.byteSize (c :: chars), rest⟩ := by
          unfold scanParameter
          dsimp only
          rw [if_pos hstarts, ← List.cons_append, hspan, hofList]
        show Except.map _ (scanParameter '@' (name.toList ++ rest)) = _
        rw [hchars, List.cons_append, hscan]
        rfl

/-- A keyword is letters, and in lower case it is found among the
keywords. -/
theorem text_keyword (word : Keyword) :
    ∃ c chars, word.text.toList = c :: chars ∧ c.isUpper = true ∧
      (c :: chars).all continuesWord = true ∧
      Keyword.ofWord? (.ofList ((c :: chars).flatMap Text.lowerChar)) = some word := by
  have hchecked : (word.text.toList.head?.any Char.isUpper && word.text.toList.all continuesWord &&
      decide (Keyword.ofWord? (.ofList (word.text.toList.flatMap Text.lowerChar)) = some word)) =
        true := by
    cases word <;> decide +kernel
  cases htext : word.text.toList with
  | nil =>
      rw [htext] at hchecked
      cases hchecked
  | cons c chars =>
      rw [htext] at hchecked
      simp only [Bool.and_eq_true, decide_eq_true_eq] at hchecked
      exact ⟨c, chars, rfl, hchecked.1.1, hchecked.1.2, hchecked.2⟩

theorem begins_keyword (word : Keyword) {rest : List Char} (hrest : Ends rest) :
    Begins rules ((Token.keyword word).spelling.toList ++ rest) (.keyword word) rest := by
  obtain ⟨c, chars, htext, hupper, hall, hword⟩ := text_keyword word
  have hspan := Text.span_append hall (hrest.stops (show continuesWord ' ' = false from rfl))
  have hrange : 65 ≤ c.val ∧ c.val ≤ 90 := of_decide_eq_true hupper
  have hhigh : c.val < 128 := UInt32.lt_of_le_of_lt hrange.2 (by decide)
  have hstarts : startsWord c = true := by
    have hletter : c.isAlpha = true := Bool.or_eq_true_iff.mpr (.inl hupper)
    simp [startsWord, Text.isLetter, hhigh, hletter]
  have hdigit : Text.isDigit c = false := by
    have hnine : ¬c ≤ '9' := Char.not_le.mpr (UInt32.lt_of_lt_of_le (by decide) hrange.1)
    simp [Text.isDigit, hnine]
  obtain ⟨hskip, -, hscan⟩ := scan_of_not_mark (UInt32.lt_of_lt_of_le (by decide) hrange.1) hhigh
    (ne_of_marks (show marks.all (!Char.isUpper ·) = true by decide) hupper) (chars ++ rest)
  refine ⟨c, chars ++ rest, Text.byteSize (c :: chars), ?_, hskip, ?_⟩
  · show word.text.toList ++ rest = _
    rw [htext, List.cons_append]
  · rw [hscan hdigit hstarts, ← List.cons_append]
    simp only [scanWord, hspan, hword]

-- ============================================================== numbers

/-- A digit is not skipped, and what it begins is scanned as a number. -/
theorem begins_scanned {c : Char} {chars rest : List Char} {size : Nat} {token : Token}
    (hdigit : Text.isDigit c = true)
    (hscan : scanNumber (c :: chars) = .ok ⟨token, size, rest⟩) :
    Begins rules (c :: chars) token rest := by
  have hrange : '0' ≤ c ∧ c ≤ '9' := by simpa [Text.isDigit] using hdigit
  obtain ⟨hskip, hnumber, -⟩ := scan_of_not_mark (UInt32.lt_of_lt_of_le (by decide) hrange.1)
    (UInt32.lt_of_le_of_lt hrange.2 (by decide))
    (ne_of_marks (show marks.all (!Text.isDigit ·) = true by decide) hdigit) chars
  exact ⟨c, chars, size, rfl, hskip, (hnumber hdigit).trans hscan⟩

/-- Digits are scanned with the exponent behind them, if there is one. -/
theorem begins_digits {text : String} {n : Nat} {exponent rest : List Char}
    (htext : text.toList = (toString n).toList ++ exponent)
    (hdigit : ∀ c ∈ (exponent ++ rest).head?, Text.isDigit c = false)
    (hpoint : (exponent ++ rest).head? ≠ some '.')
    (hexponent : spanExponent (exponent ++ rest) = (exponent, rest)) :
    Begins rules (text.toList ++ rest) (.number text) rest := by
  have hspan := Text.span_append (isDigit_toString n) hdigit
  have hfraction : spanFraction (exponent ++ rest) = ([], exponent ++ rest) := by
    unfold spanFraction
    split
    · next heq => exact absurd (congrArg List.head? heq) hpoint
    · rfl
  have hscan : scanNumber (text.toList ++ rest) =
      .ok ⟨.number text, Text.byteSize text.toList, rest⟩ := by
    rw [htext, List.append_assoc, scanNumber_eq]
    simp only [hspan, hfraction, hexponent, List.append_nil, ← htext, String.ofList_toList]
  obtain ⟨c, chars, hchars⟩ := List.exists_cons_of_ne_nil (Double.toString_ne_nil n)
  have hfirst : Text.isDigit c = true :=
    List.all_eq_true.mp (isDigit_toString n) c (hchars ▸ List.mem_cons_self)
  have hcons : text.toList ++ rest = c :: (chars ++ exponent ++ rest) := by
    rw [htext, hchars]
    rfl
  rw [hcons] at hscan ⊢
  exact begins_scanned hfirst hscan

theorem begins_number {text : String} (h : (Token.number text).IsSpellable) {rest : List Char}
    (hrest : Ends rest) :
    Begins rules ((Token.number text).spelling.toList ++ rest) (.number text) rest := by
  obtain ⟨n, rfl | ⟨places, rfl⟩⟩ := h
  · have hexponent : spanExponent ([] ++ rest) = ([], rest) := by
      cases rest with
      | nil => rfl
      | cons c rest =>
          obtain rfl := hrest c rfl
          rfl
    exact begins_digits (List.append_nil _).symm (hrest.stops rfl)
      (fun hhead => absurd (hrest _ hhead) (by decide)) hexponent
  · have hspan := Text.span_append (isDigit_toString places) (hrest.stops rfl)
    have hexponent : spanExponent (('e' :: '-' :: (toString places).toList) ++ rest) =
        ('e' :: '-' :: (toString places).toList, rest) := by
      show ('e' :: (['-'] ++ (((toString places).toList ++ rest).span Text.isDigit).1),
        (((toString places).toList ++ rest).span Text.isDigit).2) = _
      rw [hspan]
      rfl
    have htext : (toString n ++ "e-" ++ toString places).toList =
        (toString n).toList ++ 'e' :: '-' :: (toString places).toList := by
      rw [String.toList_append, String.toList_append, List.append_assoc]
      rfl
    exact begins_digits htext (by simp [Text.isDigit]) (by simp) hexponent

-- ================================================================ signs

theorem begins_sign (mark : Sign) {rest : List Char} (hrest : Ends rest) :
    Begins rules ((Token.sign mark).spelling.toList ++ rest) (.sign mark) rest := by
  cases rest with
  | nil => cases mark <;> exact ⟨_, _, _, rfl, fun _ => rfl, rfl⟩
  | cons c rest =>
      obtain rfl := hrest c rfl
      cases mark <;> exact ⟨_, _, _, rfl, fun _ => rfl, rfl⟩

-- ============================================================ the whole

/-- A token is scanned where it is written. -/
theorem begins_spelling (hquotes : rules.doubleQuoteStrings = false)
    (hbackslash : rules.backslashEscapes = false) {token : Token} (h : token.IsSpellable)
    {rest : List Char} (hrest : Ends rest) :
    Begins rules (token.spelling.toList ++ rest) token rest := by
  cases token with
  | number text => exact begins_number h hrest
  | string text => exact begins_string hbackslash text hrest
  | ident name => exact begins_ident hquotes h hrest
  | keyword word => exact begins_keyword word hrest
  | parameter name => exact begins_parameter h hrest
  | sign mark => exact begins_sign mark hrest

/-- A blank before the text is skipped. -/
theorem Cuts.blank {position : Nat} {text : List Char} {lexemes : List Lexeme}
    {failure : Option Failure} (h : Cuts rules (position + 1) text lexemes failure) :
    Cuts rules position (' ' :: text) lexemes failure := by
  have hskip : skip rules .blanks position (' ' :: text) = skip rules .blanks (position + 1) text :=
    rfl
  cases h with
  | finish h => exact .finish (hskip.trans h)
  | comment h => exact .comment (hskip.trans h)
  | fault h hscan => exact .fault (hskip.trans h) hscan
  | token h hscan hrest => exact .token (hskip.trans h) hscan hrest

/-- The token that a text begins with is cut off, and then the rest is
cut. -/
theorem Begins.cuts {text rest : List Char} {token : Token} (h : Begins rules text token rest)
    {tokens : List Token}
    (hrest : ∀ position, ∃ lexemes, lexemes.map (·.token) = tokens ∧
      Cuts rules position rest lexemes none) (position : Nat) :
    ∃ lexemes, lexemes.map (·.token) = token :: tokens ∧
      Cuts rules position text lexemes none := by
  obtain ⟨c, tail, size, rfl, hskip, hscan⟩ := h
  obtain ⟨lexemes, htokens, hcuts⟩ := hrest (position + size)
  exact ⟨⟨position, token⟩ :: lexemes, congrArg (token :: ·) htokens,
    .token (hskip position) hscan hcuts⟩

/-- Tokens that are each scanned where they are written are what the text
is cut into. -/
theorem cuts_separated {spelling : Token → String} {tokens : List Token}
    (h : ∀ token ∈ tokens, ∀ rest, Ends rest →
      Begins rules ((spelling token).toList ++ rest) token rest) (position : Nat) :
    ∃ lexemes, lexemes.map (·.token) = tokens ∧
      Cuts rules position (" ".intercalate (tokens.map spelling)).toList lexemes none := by
  rw [String.toList_intercalate, List.map_map]
  induction tokens generalizing position with
  | nil => exact ⟨[], rfl, .finish rfl⟩
  | cons token tokens ih =>
      obtain ⟨htoken, htokens⟩ := List.forall_mem_cons.mp h
      -- behind the token the text ends, or a blank and the further tokens follow
      cases tokens with
      | nil =>
          have hbegins := htoken [] nofun
          rw [List.append_nil] at hbegins
          rw [List.map_cons, List.map_nil, List.intercalate_singleton]
          exact hbegins.cuts (fun _ => ⟨[], rfl, .finish rfl⟩) position
      | cons next tokens =>
          have hends (rest : List Char) : Ends (' ' :: rest) := by
            rintro _ ⟨⟩
            rfl
          refine (htoken _ (hends _)).cuts (fun position => ?_) position
          obtain ⟨lexemes, hlexemes, hcuts⟩ := ih htokens (position + 1)
          exact ⟨lexemes, hlexemes, hcuts.blank⟩

/-- So the tokens of the text are these. -/
theorem lex_spelled (hquotes : rules.doubleQuoteStrings = false)
    (hbackslash : rules.backslashEscapes = false) {tokens : List Token}
    (h : ∀ token ∈ tokens, token.IsSpellable) :
    ∃ lexemes, lexemes.map (·.token) = tokens ∧ lex rules (spelled tokens) = ⟨lexemes, none⟩ := by
  obtain ⟨lexemes, htokens, hcuts⟩ := cuts_separated
    (fun token htoken _ => begins_spelling hquotes hbackslash (h token htoken)) 0
  exact ⟨lexemes, htokens, cuts_iff.mp hcuts⟩

end Lexer

end DialectDb
