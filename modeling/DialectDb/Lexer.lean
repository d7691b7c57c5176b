/-
The cutting of a text into tokens. Blanks and comments separate tokens
and are dropped; each token is kept with its position, which counts
bytes of UTF-8. A scanner tells how many bytes it has read, and never
needs to know where.

Where the text cannot be cut any further, what went wrong is kept beside
the tokens before it. A reader of the tokens fails with it when it gets
there, and not earlier.
-/
import DialectDb.Error

namespace DialectDb.Lexer

-- ============================================================== lexemes

/-- A token and the position of its first byte. -/
structure Lexeme where
  position : Nat
  token : Token
deriving DecidableEq

structure Failure where
  position : Nat
  fault : Malformed
deriving DecidableEq

structure Lexed where
  lexemes : List Lexeme
  failure : Option Failure
deriving DecidableEq

/-- What was read at the beginning of a text, in how many bytes, and the
rest of the text. -/
structure Reading (α : Type) where
  value : α
  size : Nat
  rest : List Char

namespace Reading

/-- What was read, with some bytes before it. -/
def after {α : Type} (size : Nat) (r : Reading α) : Reading α :=
  { r with size := size + r.size }

/-- What was read, with a character before it that some bytes stand
for. -/
def cons (c : Char) (size : Nat) (r : Reading (List Char)) : Reading (List Char) :=
  ⟨c :: r.value, size + r.size, r.rest⟩

end Reading

-- ============================================ blanks and comments

/-- What is being skipped: blanks, a comment up to the end of the line,
or one up to its closing sign. The latter remembers the position of its
start. -/
inductive Skipping
  | blanks
  | line
  | block (start : Nat)

/-- The text after blanks and comments, and its position, given that of
the text before it; if a comment is not closed, the position of its
start. A comment's closing sign has to follow all of its opening
sign. -/
def skip (rules : LexicalRules) : Skipping → Nat → List Char → Except Nat (Nat × List Char)
  | .blanks, position, [] => .ok (position, [])
  | .blanks, position, c :: rest =>
    if Text.isBlank c then skip rules .blanks (position + c.utf8Size) rest
    else
      match c, rest with
      | '-', '-' :: rest => skip rules .line (position + 2) rest
      | '/', '*' :: rest => skip rules (.block position) (position + 2) rest
      | '#', rest =>
        if rules.hashComments then skip rules .line (position + 1) rest
        else .ok (position, c :: rest)
      | _, rest => .ok (position, c :: rest)
  | .line, position, [] => .ok (position, [])
  | .line, position, c :: rest =>
    skip rules (if c = '\n' then .blanks else .line) (position + c.utf8Size) rest
  | .block start, _, [] => .error start
  | .block _, position, '*' :: '/' :: rest => skip rules .blanks (position + 2) rest
  | .block start, position, c :: rest =>
    skip rules (.block start) (position + c.utf8Size) rest

-- ============================================================= scanners

def startsWord (c : Char) : Bool :=
  Text.isLetter c || c = '_'

def continuesWord (c : Char) : Bool :=
  Text.isLetterOrNumber c || c = '_' || c = '$'

def continuesParameter (c : Char) : Bool :=
  Text.isLetterOrNumber c || c = '_'

abbrev Scanned := Except Malformed (Reading Token)

/-- A keyword or an identifier. Words are put into lower case one
character at a time. -/
def scanWord (text : List Char) : Scanned :=
  let (letters, rest) := text.span continuesWord
  let word := String.ofList (letters.flatMap Text.lowerChar)
  match Keyword.ofWord? word with
  | some keyword => .ok ⟨.keyword keyword, Text.byteSize letters, rest⟩
  | none => .ok ⟨.ident word, Text.byteSize letters, rest⟩

/-- The fraction at the beginning of a text, if any: a point and
digits. -/
def spanFraction : List Char → List Char × List Char
  | '.' :: rest =>
    let (digits, rest) := rest.span Text.isDigit
    ('.' :: digits, rest)
  | rest => ([], rest)

/-- The exponent at the beginning of a text, if any: a mark, an optional
sign and digits, which may be missing. -/
def spanExponent : List Char → List Char × List Char
  | [] => ([], [])
  | mark :: rest =>
    if mark != 'e' && mark != 'E' then ([], mark :: rest)
    else
      let (sign, rest) :=
        match rest with
        | '+' :: rest => (['+'], rest)
        | '-' :: rest => (['-'], rest)
        | rest => ([], rest)
      let (digits, rest) := rest.span Text.isDigit
      (mark :: (sign ++ digits), rest)

/-- A number. Whether its text is one that can be read as a value is
left to the reader of the tokens. -/
def scanNumber (text : List Char) : Scanned :=
  let (whole, rest) := text.span Text.isDigit
  let (fraction, rest) := spanFraction rest
  let (exponent, rest) := spanExponent rest
  let digits := whole ++ fraction ++ exponent
  .ok ⟨.number (.ofList digits), Text.byteSize digits, rest⟩

/-- The content of a quoted identifier, read up to and with the closing
quote. A doubled closing quote stands for itself. -/
def identifierContent (close : Char) : List Char → Option (Reading (List Char))
  | [] => none
  | [c] => if c = close then some ⟨[], c.utf8Size, []⟩ else none
  | c :: d :: rest =>
    if c = close then
      if d = close then
        (identifierContent close rest).map (.cons c (c.utf8Size + d.utf8Size))
      else some ⟨[], c.utf8Size, d :: rest⟩
    else (identifierContent close (d :: rest)).map (.cons c c.utf8Size)

/-- A quoted identifier, from after its opening quote. Its letter case
is kept. -/
def scanIdentifier (close : Char) (text : List Char) : Scanned :=
  match identifierContent close text with
  | none => .error .unterminatedIdentifier
  | some ⟨[], _, _⟩ => .error .emptyIdentifier
  | some ⟨content, size, rest⟩ => .ok ⟨.ident (.ofList content), size, rest⟩

/-- The character that a backslash and the character after it stand
for. -/
def unescape : Char → Char
  | 'n' => '\n'
  | 't' => '\t'
  | 'r' => '\r'
  | '0' => '\x00'
  | c => c

/-- The content of a string, read up to and with the closing quote. A
doubled quote stands for itself. -/
def stringContent (backslashes : Bool) (quote : Char) :
    List Char → Option (Reading (List Char))
  | [] => none
  | [c] => if c = quote then some ⟨[], c.utf8Size, []⟩ else none
  | c :: d :: rest =>
    if c = quote then
      if d = quote then
        (stringContent backslashes quote rest).map (.cons c (c.utf8Size + d.utf8Size))
      else some ⟨[], c.utf8Size, d :: rest⟩
    else if c = '\\' && backslashes then
      (stringContent backslashes quote rest).map (.cons (unescape d) (c.utf8Size + d.utf8Size))
    else (stringContent backslashes quote (d :: rest)).map (.cons c c.utf8Size)

/-- A string, from after its opening quote. -/
def scanString (rules : LexicalRules) (quote : Char) (text : List Char) : Scanned :=
  match stringContent rules.backslashEscapes quote text with
  | none => .error .unterminatedString
  | some content => .ok { content with value := .string (.ofList content.value) }

/-- The sign at the beginning of a text, the longer ones first. -/
def signAt? : List Char → Option (Reading Sign)
  | '!' :: '=' :: rest => some ⟨.notEqual, 2, rest⟩
  | '<' :: '>' :: rest => some ⟨.notEqual, 2, rest⟩
  | '>' :: '=' :: rest => some ⟨.greaterEqual, 2, rest⟩
  | '<' :: '=' :: rest => some ⟨.lessEqual, 2, rest⟩
  | '|' :: '|' :: rest => some ⟨.concat, 2, rest⟩
  | '?' :: rest => some ⟨.question, 1, rest⟩
  | '.' :: rest => some ⟨.period, 1, rest⟩
  | '=' :: rest => some ⟨.equal, 1, rest⟩
  | '>' :: rest => some ⟨.greater, 1, rest⟩
  | '<' :: rest => some ⟨.less, 1, rest⟩
  | '+' :: rest => some ⟨.plus, 1, rest⟩
  | '-' :: rest => some ⟨.minus, 1, rest⟩
  | '*' :: rest => some ⟨.asterisk, 1, rest⟩
  | '/' :: rest => some ⟨.slash, 1, rest⟩
  | '%' :: rest => some ⟨.percent, 1, rest⟩
  | '(' :: rest => some ⟨.openParen, 1, rest⟩
  | ')' :: rest => some ⟨.closeParen, 1, rest⟩
  | ',' :: rest => some ⟨.comma, 1, rest⟩
  | ';' :: rest => some ⟨.semicolon, 1, rest⟩
  | _ => none

/-- A named parameter, from after the sign before its name. -/
def scanParameter (mark : Char) (text : List Char) : Scanned :=
  match text with
  | [] => .error (.unexpectedCharacter mark)
  | c :: _ =>
    if startsWord c then
      let (name, rest) := text.span continuesParameter
      .ok ⟨.parameter (.ofList name), Text.byteSize name, rest⟩
    else .error (.unexpectedCharacter mark)

/-- The token at the beginning of a text that starts with `c`. What a
quote character opens depends on the dialect; where it opens nothing, it
is not expected. -/
def scan (rules : LexicalRules) (c : Char) (rest : List Char) : Scanned :=
  let opened (scanned : Scanned) : Scanned := scanned.map (.after c.utf8Size)
  if c = '\'' then opened (scanString rules c rest)
  else if c = '"' then
    opened (if rules.doubleQuoteStrings then scanString rules c rest else scanIdentifier c rest)
  else if c = '`' && rules.backtickIdentifiers then opened (scanIdentifier c rest)
  else if c = '[' && rules.bracketIdentifiers then opened (scanIdentifier ']' rest)
  else if c = '@' || c = ':' then opened (scanParameter c rest)
  else if Text.isDigit c then scanNumber (c :: rest)
  else if startsWord c then scanWord (c :: rest)
  else
    match signAt? (c :: rest) with
    | some sign => .ok { sign with value := .sign sign.value }
    | none => .error (.unexpectedCharacter c)

-- ============================================================ the whole

/-- The tokens of a text at a position, at most `count` of them. -/
def lexWithin (rules : LexicalRules) : Nat → Nat → List Char → Lexed
  | 0, _, _ => ⟨[], none⟩
  | count + 1, position, text =>
    match skip rules .blanks position text with
    | .error start => ⟨[], some ⟨start, .unterminatedComment⟩⟩
    | .ok (_, []) => ⟨[], none⟩
    | .ok (position, c :: rest) =>
      match scan rules c rest with
      | .error fault => ⟨[], some ⟨position, fault⟩⟩
      | .ok ⟨token, size, rest⟩ =>
        let ⟨lexemes, failure⟩ := lexWithin rules count (position + size) rest
        ⟨⟨position, token⟩ :: lexemes, failure⟩

/-- The tokens of a text. A token has at least one character, so there
are at most as many tokens as characters; one more step finds the end. -/
def lex (rules : LexicalRules) (text : String) : Lexed :=
  let chars := text.toList
  lexWithin rules (chars.length + 1) 0 chars

-- ========================================================== identifiers

/-- Whether a name can be written as an identifier without quotes. -/
def isIdentifier (name : String) : Bool :=
  match name.toList with
  | [] => false
  | c :: rest => startsWord c && rest.all continuesParameter

/-- A name as it is written in a statement: between double quotes unless
it is a plain identifier and no keyword. -/
def writtenName (name : String) : String :=
  if isIdentifier name && (Keyword.ofWord? (Text.lower name)).isNone then name
  else "\"" ++ Text.doubled '"' name ++ "\""

end DialectDb.Lexer
