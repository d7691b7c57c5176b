/-
The reading of tokens. A parser takes tokens from the front of those
that are left, knows where the last one stood, and counts the positional
placeholders it has met.

A text that cannot be cut into tokens to its end is read as far as it
can be: the lexical failure is raised when a token is wanted where it
stands. A parser that merely asks whether the next token is a certain
one is told no there, and leaves the failure for the next that needs a
token.
-/
import DialectDb.Lexer

namespace DialectDb

-- =============================================================== state

/-- What is left to read, and what has been counted so far. -/
structure Cursor where
  lexemes : List Lexer.Lexeme
  /-- The position of the last token that was taken. -/
  position : Nat := 0
  /-- The number of positional placeholders so far. -/
  ordinals : Nat := 0

/-- What stays the same while a text, or a part of it, is read. -/
structure Surroundings where
  version : DialectVersion
  /-- What stands behind the last token, if not the end. -/
  failure : Option Lexer.Failure
  /-- The size of the text, which is the position of its end. -/
  size : Nat
  /-- Whether upsert assignments are read, where the row that was to be
  inserted can be referred to. -/
  upsert : Bool := false

/-- A reader of tokens. -/
abbrev Parser := ReaderT Surroundings (StateT Cursor Result)

namespace Parser

-- ============================================================= failures

/-- Fails at the last token that was taken. -/
def fault {α : Type} (f : Malformed) : Parser α := do
  throw (.malformed (← get).position f)

/-- Fails for a construct that the dialect version lacks, unless a
condition holds. -/
def require (condition : DialectVersion → Bool) (feature : Feature) : Parser Unit := do
  let version := (← read).version
  if condition version then pure () else throw (.unsupported version feature)

/-- Fails for want of a token: with the lexical failure behind the last
token, or else at the end of the text. -/
def ending {α : Type} : Parser α := do
  let around ← read
  match around.failure with
  | some failure => throw (.malformed failure.position failure.fault)
  | none => throw (.malformed around.size .unexpectedEnd)

-- ======================================================== single tokens

def next : Parser Token := do
  let cursor ← get
  match cursor.lexemes with
  | [] => ending
  | lexeme :: rest =>
    set { cursor with lexemes := rest, position := lexeme.position }
    pure lexeme.token

/-- The next token, if there is one; none also before a lexical
failure. -/
def peekQuiet : Parser (Option Token) := do
  pure ((← get).lexemes.head?.map (·.token))

/-- The next token, if there is one; fails at a lexical failure. -/
def peek : Parser (Option Token) := do
  match (← get).lexemes with
  | lexeme :: _ => pure (some lexeme.token)
  | [] =>
    match (← read).failure with
    | some failure => throw (.malformed failure.position failure.fault)
    | none => pure none

/-- The token after the next one, if there is one. -/
def peekSecond : Parser (Option Token) := do
  pure ((← get).lexemes[1]?.map (·.token))

/-- The position of the next token, or of the end. -/
def peekPosition : Parser Nat := do
  match (← get).lexemes with
  | lexeme :: _ => pure lexeme.position
  | [] => pure (← read).size

/-- Takes the next token if a function knows it, with what it makes of
it. -/
def nextMap? {α : Type} (f : Token → Option α) : Parser (Option α) := do
  let cursor ← get
  match cursor.lexemes with
  | [] => pure none
  | lexeme :: rest =>
    match f lexeme.token with
    | none => pure none
    | some a =>
      set { cursor with lexemes := rest, position := lexeme.position }
      pure (some a)

def accept (token : Token) : Parser Bool := do
  let taken ← nextMap? fun t => if t = token then some () else none
  pure taken.isSome

def expect (token : Token) : Parser Unit := do
  let found ← next
  if found = token then pure () else fault (.expectedToken token found)

/-- Passes over the next token if it is the given one. -/
def skipOver (token : Token) : Parser Unit := do
  let _ ← accept token

/-- The name that a token is as an identifier. Unreserved keywords are
identifiers, in lower case. -/
def nameOf? : Token → Option String
  | .ident name => some name
  | .keyword word => if word.isUnreserved then some word.word else none
  | _ => none

def identifier : Parser String := do
  let found ← next
  match nameOf? found with
  | some name => pure name
  | none => fault (.expected "identifier" found)

-- ============================================================ repetition

/-- Applies a step at most `count` times, until it declines. -/
def iterateWithin {α : Type} (step : α → Parser (Option α)) : Nat → α → Parser α
  | 0, a => pure a
  | count + 1, a => do
    match ← step a with
    | none => pure a
    | some b => iterateWithin step count b

/-- Applies a step until it declines. A step that does not decline takes
a token, so the number of tokens left bounds the repetition. -/
def iterate {α : Type} (step : α → Parser (Option α)) (a : α) : Parser α := do
  iterateWithin step ((← get).lexemes.length + 1) a

def commaFold {α : Type} (item : α → Parser α) (a : α) : Parser α := do
  iterate (fun a => do if ← accept Sign.comma then some <$> item a else pure none) (← item a)

/-- Reads a list of items separated by commas, at least one. -/
def commaList {α : Type} (item : Parser α) : Parser (List α) :=
  commaFold (fun items => do pure (items ++ [← item])) []

def parenthesized {α : Type} (content : Parser α) : Parser α := do
  expect Sign.openParen
  let a ← content
  expect Sign.closeParen
  pure a

def identifierList : Parser (List String) :=
  parenthesized (commaList identifier)

/-- Reads a clause that a keyword opens, if the keyword is there. -/
def clause? {α : Type} (keyword : Keyword) (content : Parser α) : Parser (Option α) := do
  if ← accept keyword then some <$> content else pure none

end Parser

end DialectDb
