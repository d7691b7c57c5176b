/-
The options that the shell is started with, and how they are given:
`-d` and `--dialect` with a name, `-r` and `--dialect-version` with a
number, each at most once, and at most one statement. Without a version
the latest one of the dialect is meant.
-/
import DialectDb.Text

namespace DialectDb

/-- What the shell is started with. -/
structure Options where
  dialect : Option String := none
  version : Option Nat := none
  /-- The statement or command to execute; without one they are read
  from the input. -/
  statement : Option String := none
deriving DecidableEq

/-- What is wrong with an argument. -/
inductive ArgumentFault
  | unexpected (argument : String)
  | repeated (option : String)
  | missingValue (option : String)
  | badVersion (text : String)
deriving DecidableEq

def ArgumentFault.message : ArgumentFault → String
  | unexpected argument => s!"unexpected argument {argument}"
  | repeated option => s!"option {option} given multiple times"
  | missingValue option => s!"option {option} takes a value"
  | badVersion text => s!"invalid version {text}, expected a number"

namespace Options

/-- The dialect where none is given. -/
def defaultDialect : String := "sqlite"

/-- The options that take values. -/
inductive Key
  | dialect
  | version
deriving DecidableEq

namespace Key

def letter : Key → Char
  | dialect => 'd'
  | version => 'r'

def word : Key → String
  | dialect => "dialect"
  | version => "dialect-version"

def text (k : Key) : String := "--" ++ k.word

def all : List Key := [dialect, version]

end Key

/-- The greatest version number there can be. -/
def maxVersion : Nat := 4294967295

/-- The number that a text of decimal digits is; a plus sign can stand
before it. -/
def versionOf? (text : String) : Option Nat :=
  let digits :=
    match text.toList with
    | '+' :: digits => digits
    | digits => digits
  if digits.isEmpty || !digits.all Text.isDigit then none
  else
    let n := digits.foldl (fun n c => 10 * n + (c.toNat - 48)) 0
    if n ≤ maxVersion then some n else none

def set (o : Options) (k : Key) (value : String) : Except ArgumentFault Options :=
  match k with
  | .dialect =>
    if o.dialect.isSome then .error (.repeated k.text) else .ok { o with dialect := some value }
  | .version =>
    if o.version.isSome then .error (.repeated k.text)
    else
      match versionOf? value with
      | some n => .ok { o with version := some n }
      | none => .error (.badVersion value)

def setStatement (o : Options) (text : String) : Except ArgumentFault Options :=
  if o.statement.isSome then .error (.unexpected text) else .ok { o with statement := some text }

/-- An option as an argument has it: alone, or with its value behind it.
An equals sign can stand between the two, and after a word it has to. -/
def keyOf? (argument : List Char) : Option (Key × Option (List Char)) :=
  let value : List Char → List Char
    | '=' :: rest => rest
    | rest => rest
  match argument with
  | '-' :: '-' :: text =>
    let word := text.takeWhile (· != '=')
    (Key.all.find? (·.word.toList == word)).map fun k =>
      (k, if word.length < text.length then some (text.drop (word.length + 1)) else none)
  | '-' :: c :: rest =>
    (Key.all.find? (·.letter == c)).map fun k =>
      (k, if rest.isEmpty then none else some (value rest))
  | _ => none

/-- Whether an argument looks like an option. -/
def isOption : List Char → Bool
  | '-' :: _ :: _ => true
  | _ => false

/-- Reads arguments after others. -/
def read (o : Options) : List String → Except ArgumentFault Options
  | [] => .ok o
  | "--" :: rest => rest.foldlM setStatement o
  | argument :: rest =>
    match keyOf? argument.toList with
    | some (k, some value) => do (← o.set k (.ofList value)).read rest
    | some (k, none) =>
      match rest with
      | value :: rest =>
        if isOption value.toList then .error (.missingValue k.text)
        else do (← o.set k value).read rest
      | [] => .error (.missingValue k.text)
    | none =>
      if isOption argument.toList then .error (.unexpected argument)
      else do (← o.setStatement argument).read rest

def ofArguments (arguments : List String) : Except ArgumentFault Options :=
  read {} arguments

end Options

end DialectDb
