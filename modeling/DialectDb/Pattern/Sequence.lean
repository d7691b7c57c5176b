/-
The bytes that a character of a pattern stands for. It stands for all
characters that are equal to it up to case, and such a set of characters
is written as sequences of byte ranges: a text is one of the characters
if its bytes are in the ranges of one of the sequences.
-/
import DialectDb.Pattern

namespace DialectDb.Pattern

-- ============================================================ sequences

/-- The bytes from one to another. -/
structure ByteRange where
  first : Nat
  last : Nat
deriving DecidableEq

/-- Characters as the ranges of their bytes. -/
abbrev ByteSequence := List ByteRange

/-- The sequence of a single character. -/
def byteSequence (code : Nat) : ByteSequence :=
  (String.utf8EncodeChar (Char.ofNat code)).map fun byte => ⟨byte.toNat, byte.toNat⟩

/-- Two sequences as one, if they are the same up to the last range and
that of the second follows on that of the first. -/
def join? : ByteSequence → ByteSequence → Option ByteSequence
  | [a], [b] => if a.last + 1 = b.first then some [⟨a.first, b.last⟩] else none
  | a :: as, b :: bs => if a = b then (join? as bs).map (a :: ·) else none
  | _, _ => none

def addSequence (new : ByteSequence) : List ByteSequence → List ByteSequence
  | [] => [new]
  | next :: rest =>
    match join? new next with
    | some joined => joined :: rest
    | none => new :: next :: rest

/-- The sequences of characters in ascending order. -/
def byteSequences (codes : List Nat) : List ByteSequence :=
  codes.foldr (fun code => addSequence (byteSequence code)) []

/-- The sequences of all characters. -/
def allSequences : List ByteSequence :=
  let later : ByteRange := ⟨128, 191⟩
  [[⟨0, 127⟩],
    [⟨194, 223⟩, later],
    [⟨224, 224⟩, ⟨160, 191⟩, later],
    [⟨225, 236⟩, later, later],
    [⟨237, 237⟩, ⟨128, 159⟩, later],
    [⟨238, 239⟩, later, later],
    [⟨240, 240⟩, ⟨144, 191⟩, later, later],
    [⟨241, 243⟩, later, later, later],
    [⟨244, 244⟩, ⟨128, 143⟩, later, later]]

-- ============================================================ branching

/-- The first ranges of sequences, each once. -/
def heads (sequences : List ByteSequence) : List ByteRange :=
  (sequences.filterMap List.head?).eraseDups

/-- What is left of the sequences that begin with a range. -/
def following (head : ByteRange) (sequences : List ByteSequence) : List ByteSequence :=
  (sequences.filter (·.head? = some head)).map List.tail

-- ================================================================ parts

/-- What a pattern is put together from. -/
inductive Part
  /-- States of their own, with branches that take so many bytes. -/
  | states (count branchBytes : Nat)
  /-- One of a set of characters, not all of which are single bytes. -/
  | oneOf (sequences : List ByteSequence)

namespace Part

/-- One of a set of characters. Where all are single bytes, one state
branches on the byte and all branches lead to another. -/
def ofSequences (sequences : List ByteSequence) : Part :=
  if sequences.all (·.length = 1) then .states 2 (8 * sequences.length) else .oneOf sequences

/-- The parts that a character of a pattern is. A percent sign is a
state that leads back to itself over any character, or on. A character
without another letter case is a chain of states, one for each byte. -/
def ofChar (c : Char) : List Part :=
  if c = '%' then [.states 1 8, .oneOf allSequences]
  else if c = '_' then [.oneOf allSequences]
  else
    match Text.caseVariants c with
    | [code] => [.states (byteSequence code).length 0]
    | codes => [ofSequences (byteSequences codes)]

end Part

end DialectDb.Pattern
