/-
Text as statements, names and values use it: what a word is made of,
letter case, blanks, and the quoted form that messages show. Beyond
ASCII each of these follows the character standard's tables; within
ASCII it is decided without them, which is both the common case and the
same answer.

Names (of tables, columns, dialects and parameters) are compared up to
ASCII letter case only: `sameName` is equality of `nameKey`, hence an
equivalence.
-/
import DialectDb.Unicode.Letter
import DialectDb.Unicode.Case
import DialectDb.Unicode.Fold
import DialectDb.Unicode.Printable

namespace DialectDb.Text

/-- The number of bytes of characters in UTF-8. -/
def byteSize (chars : List Char) : Nat :=
  chars.foldl (fun size c => size + c.utf8Size) 0

-- ================================================== character classes

/-- Letters, with which an unquoted word can start. -/
def isLetter (c : Char) : Bool :=
  if c.val < 128 then c.isAlpha else Unicode.alphabetic.holds c.toNat

/-- Letters and numbers, with which an unquoted word can go on. -/
def isLetterOrNumber (c : Char) : Bool :=
  if c.val < 128 then c.isAlphanum
  else Unicode.alphabetic.holds c.toNat || Unicode.numeric.holds c.toNat

def isBlank (c : Char) : Bool :=
  if c.val < 128 then c = ' ' || ('\t' ≤ c && c ≤ '\r') else Unicode.whiteSpace.holds c.toNat

/-- The decimal digits `0` to `9`; other scripts' digits write no numbers. -/
def isDigit (c : Char) : Bool :=
  '0' ≤ c && c ≤ '9'

-- ============================================================== names

/-- A name with its ASCII letters in lower case. -/
def nameKey (name : String) : List Char :=
  name.toList.map Char.toLower

/-- Whether two names are the same up to ASCII letter case. -/
def sameName (a b : String) : Bool :=
  nameKey a == nameKey b

theorem sameName_iff {a b : String} : sameName a b = true ↔ nameKey a = nameKey b := by
  simp [sameName]

-- ======================================================== letter case

/-- The image of a character under a case map: one of the listed
sequences, or a shifted single character. -/
def caseImage (shifts : List Unicode.Shift) (sequences : List (Nat × List Nat))
    (c : Char) : List Char :=
  match sequences.lookup c.toNat with
  | some codes => codes.map Char.ofNat
  | none => [Char.ofNat (Unicode.Shift.apply shifts c.toNat)]

/-- The lower case of a character on its own. -/
def lowerChar (c : Char) : List Char :=
  if c.val < 128 then [c.toLower]
  else caseImage Unicode.lowerShifts Unicode.lowerSequences c

def upperChar (c : Char) : List Char :=
  if c.val < 128 then [c.toUpper]
  else caseImage Unicode.upperShifts Unicode.upperSequences c

/-- Whether the first character that takes part in casing is a cased
one. -/
def meetsCased (chars : List Char) : Bool :=
  match chars.find? fun c => !Unicode.caseIgnorable.holds c.toNat with
  | some c => Unicode.cased.holds c.toNat
  | none => false

/-- Lower case of a text whose beginning, reversed, is `before`. A
capital sigma becomes final at the end of a word: after a cased letter
and not before one. -/
def lowerAfter (before : List Char) : List Char → List Char
  | [] => []
  | c :: rest =>
    let image :=
      if c = 'Σ' then
        if meetsCased before && !meetsCased rest then ['ς'] else ['σ']
      else lowerChar c
    image ++ lowerAfter (c :: before) rest

def lower (text : String) : String :=
  .ofList (lowerAfter [] text.toList)

def upper (text : String) : String :=
  .ofList (text.toList.flatMap upperChar)

/-- A representative of the characters equal to `c` up to case. -/
def fold (c : Char) : Nat :=
  if c.val < 128 then c.toLower.toNat else Unicode.Shift.apply Unicode.foldShifts c.toNat

/-- The characters equal to `c` up to case, in ascending order. -/
def caseVariants (c : Char) : List Nat :=
  (fold c :: Unicode.Shift.sources Unicode.foldShifts (fold c)).mergeSort

-- ============================================================= blanks

/-- A text without the blanks at its ends. -/
def trim (text : String) : String :=
  .ofList ((text.toList.dropWhile isBlank).reverse.dropWhile isBlank).reverse

-- ======================================================== written forms

/-- A digit of a code point's hexadecimal form. -/
private def hexDigit (n : Nat) : Char :=
  if n < 10 then Char.ofNat (48 + n) else Char.ofNat (87 + n)

/-- A code point in hexadecimal, without leading zeros. -/
def hex (n : Nat) : List Char :=
  if n < 16 then [hexDigit n] else hex (n / 16) ++ [hexDigit (n % 16)]
termination_by n

/-- A character inside a quoted text. -/
def quotedChar (c : Char) : List Char :=
  if c = '"' || c = '\\' then ['\\', c]
  else if c = '\x00' then ['\\', '0']
  else if c = '\t' then ['\\', 't']
  else if c = '\n' then ['\\', 'n']
  else if c = '\r' then ['\\', 'r']
  else if Unicode.escaped.holds c.toNat then "\\u\x7b".toList ++ hex c.toNat ++ ['\x7d']
  else [c]

/-- A text between double quotes, with quotes, backslashes and invisible
characters escaped. -/
def quoted (text : String) : String :=
  .ofList ('"' :: text.toList.flatMap quotedChar ++ ['"'])

/-- Items between square brackets, as messages list them. -/
def bracketed (items : List String) : String :=
  "[" ++ ", ".intercalate items ++ "]"

/-- A text with every occurrence of a quote character doubled. -/
def doubled (quote : Char) (text : String) : String :=
  .ofList (text.toList.flatMap fun c => if c = quote then [c, c] else [c])

end DialectDb.Text
