/-
LIKE patterns: `%` stands for any characters, `_` for exactly one, and
every other character for one that is equal up to case. A pattern has to
match the whole text, line breaks included.

A pattern is matched piece by piece, the pieces being what is between
its percent signs. The first piece has to be at the beginning of the
text and the last one at its end. Every other piece is looked for in
what is left, and the first place that matches it is taken: a later
place would leave less for the pieces after it, and nothing that the
percent sign before them could not pass over.
-/
import DialectDb.Text

namespace DialectDb

/-- What a pattern asks of one character. -/
inductive Wanted
  | any
  /-- A character with the given representative of those equal to it up
  to case. -/
  | folded (code : Nat)
deriving DecidableEq

/-- What a character of a pattern other than `%` asks. -/
def Wanted.ofChar (c : Char) : Wanted :=
  if c = '_' then any else folded (Text.fold c)

/-- Whether a character, given by its representative, is wanted. -/
def Wanted.accepts : Wanted → Nat → Bool
  | any, _ => true
  | folded wanted, code => code == wanted

/-- A pattern, compared by its text. -/
structure Pattern where
  text : String
deriving DecidableEq

namespace Pattern

/-- What is between the percent signs of a pattern. -/
def pieces (p : Pattern) : List (List Wanted) :=
  (p.text.toList.splitOnP (· == '%')).map (·.map .ofChar)

/-- The text behind a piece that it begins with. -/
def behind? : List Wanted → List Nat → Option (List Nat)
  | [], text => some text
  | _ :: _, [] => none
  | wanted :: piece, code :: text => if wanted.accepts code then behind? piece text else none

/-- The text behind the first place that matches a piece. -/
def behindFirst? (piece : List Wanted) : List Nat → Option (List Nat)
  | [] => behind? piece []
  | code :: text =>
    match behind? piece (code :: text) with
    | some rest => some rest
    | none => behindFirst? piece text

/-- Whether a text ends with a piece. -/
def endsWith (piece : List Wanted) (text : List Nat) : Bool :=
  behind? piece (text.drop (text.length - piece.length)) == some []

/-- Whether a text matches pieces that each have a percent sign before
them. -/
def acceptsLater : List (List Wanted) → List Nat → Bool
  | [], text => text.isEmpty
  | [piece], text => endsWith piece text
  | piece :: pieces, text =>
    match behindFirst? piece text with
    | some rest => acceptsLater pieces rest
    | none => false

/-- Whether a text matches pieces. -/
def acceptsPieces (pieces : List (List Wanted)) (text : List Nat) : Bool :=
  match behind? (pieces.headD []) text with
  | some rest => acceptsLater pieces.tail rest
  | none => false

def accepts (p : Pattern) (text : String) : Bool :=
  acceptsPieces p.pieces (text.toList.map Text.fold)

end Pattern

end DialectDb
