/-
The characters of a text as a reader counts them. Such a cluster can be
several code points: a letter with its marks, a syllable, a flag, a
picture made of others. Where a cluster ends depends on its characters
so far and the one after them, and of each only on the role it plays.

Typed text can hold backspaces. Each takes back the cluster before it,
as far as that is not taken back yet.
-/
import DialectDb.Text
import DialectDb.Unicode.Cluster

namespace DialectDb

-- =============================================================== roles

/-- What a character does in a cluster. -/
inductive ClusterRole
  | carriageReturn
  | lineFeed
  | control
  /-- A mark on what is before it. -/
  | mark
  /-- A mark that makes one of the consonants on its sides. -/
  | linker
  /-- The mark that keeps consonants apart. -/
  | nonJoiner
  /-- The mark that makes one of the pictures on its sides. -/
  | joiner
  | spacingMark
  /-- A sign on what is after it. -/
  | prefixed
  | picture
  /-- Half of a flag. -/
  | region
  | consonant
  | leadingJamo
  | vowelJamo
  | trailingJamo
  /-- A syllable that ends with its vowel. -/
  | openSyllable
  | closedSyllable
  | alone
deriving DecidableEq

namespace ClusterRole

/-- The number of syllables with the same beginning, of which the first
one is open. -/
def syllableEndings : Nat := 28

/-- The role of a code point outside of ASCII. -/
def ofCode (code : Nat) : ClusterRole :=
  if code = 0x200c then nonJoiner
  else if code = 0x200d then joiner
  else if Unicode.control.holds code then control
  else if Unicode.conjoining.holds code then linker
  else if Unicode.extending.holds code then mark
  else if Unicode.spacing.holds code then spacingMark
  else if Unicode.prepended.holds code then prefixed
  else if Unicode.pictographic.holds code then picture
  else if Unicode.regional.holds code then region
  else if Unicode.conjoined.holds code then consonant
  else if Unicode.leadingJamo.holds code then leadingJamo
  else if Unicode.vowelJamo.holds code then vowelJamo
  else if Unicode.trailingJamo.holds code then trailingJamo
  else if Unicode.syllables.holds code then
    if (code - 0xac00) % syllableEndings = 0 then openSyllable else closedSyllable
  else alone

/-- The role of a character. -/
def ofChar (c : Char) : ClusterRole :=
  if c = '\r' then carriageReturn
  else if c = '\n' then lineFeed
  else if c.val < 128 then (if ' ' ≤ c && c ≤ '~' then alone else control)
  else ofCode c.toNat

/-- Whether the character is a cluster of its own, other than in the
line break of two characters. -/
def isControl (r : ClusterRole) : Bool :=
  r = carriageReturn || r = lineFeed || r = control

-- ========================================================== boundaries

/-- Whether roles, the last one first, end with a consonant and the
marks on it, one of which is a linker. -/
def endsLinked (linked : Bool) : List ClusterRole → Bool
  | linker :: before => endsLinked true before
  | mark :: before | joiner :: before => endsLinked linked before
  | consonant :: _ => linked
  | _ => false

/-- Whether roles, the last one first, end with a picture and the marks
on it. -/
def endsInPicture : List ClusterRole → Bool
  | mark :: before | linker :: before | nonJoiner :: before => endsInPicture before
  | picture :: _ => true
  | _ => false

/-- Whether a character belongs to the cluster before it, whose roles
are `before`, the last one first. -/
def joins : List ClusterRole → ClusterRole → Bool
  | [], _ => false
  | last :: before, next =>
    if last.isControl || next.isControl then last = carriageReturn && next = lineFeed
    else
      match last, next with
      | leadingJamo, leadingJamo | leadingJamo, vowelJamo | leadingJamo, openSyllable
      | leadingJamo, closedSyllable => true
      | openSyllable, vowelJamo | openSyllable, trailingJamo => true
      | vowelJamo, vowelJamo | vowelJamo, trailingJamo => true
      | closedSyllable, trailingJamo | trailingJamo, trailingJamo => true
      | _, mark | _, linker | _, nonJoiner | _, joiner | _, spacingMark => true
      | prefixed, _ => true
      | _, consonant => endsLinked false (last :: before)
      | joiner, picture => endsInPicture before
      | _, region => ((last :: before).takeWhile (· = region)).length % 2 = 1
      | _, _ => false

end ClusterRole

-- ============================================================ clusters

namespace Cluster

/-- Cuts the rest of a text, given the characters of the cluster before
it and their roles, the last ones first. -/
def cutAfter (cluster : List Char) (roles : List ClusterRole) : List Char → List (List Char)
  | [] => [cluster.reverse]
  | c :: rest =>
    let role := ClusterRole.ofChar c
    if ClusterRole.joins roles role then cutAfter (c :: cluster) (role :: roles) rest
    else cluster.reverse :: cutAfter [c] [role] rest

/-- Cuts a text into its clusters. -/
def cut : List Char → List (List Char)
  | [] => []
  | c :: rest => cutAfter [c] [.ofChar c] rest

-- ========================================================== backspaces

/-- Typed characters, the last one first, without a number of bytes at
their end. -/
def takeBack : List Char → Nat → List Char
  | [], _ => []
  | c :: typed, bytes =>
    if bytes = 0 then c :: typed else takeBack typed (bytes - c.utf8Size)

/-- Types clusters after what is typed already, the last character
first, in clusters of the given sizes, the last one first. A size is
kept in a single byte. -/
def type (typed : List Char) (sizes : List Nat) : List (List Char) → List Char
  | [] => typed.reverse
  | cluster :: rest =>
    if cluster = ['\x08'] then
      match sizes with
      | [] => type typed [] rest
      | size :: sizes => type (takeBack typed size) sizes rest
    else type (cluster.reverse ++ typed) (Text.byteSize cluster % 256 :: sizes) rest

/-- A text after its backspaces. -/
def withoutBackspaces (text : String) : String :=
  let chars := text.toList
  if chars.contains '\x08' then .ofList (type [] [] (cut chars)) else text

end Cluster

end DialectDb
