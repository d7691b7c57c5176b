/-
The automata that a pattern is compiled into, as far as their size goes.
One reads the bytes of a text forward and the other backward.

The byte sequences of a set of characters share states: in the forward
automaton those of the same endings, in the backward one those of the
same beginnings. A state is found again by what it does, in a table with
a number of places, where a state that is to be at the place of another
drives it out. What it does includes the number of the state that comes
next, so its place depends on how many states there were before, and the
same set can take a state more in one place of a pattern than in another.
-/
import DialectDb.Pattern.Sequence

namespace DialectDb.Pattern

-- =============================================================== states

/-- A state in the table. -/
structure Known where
  place : Nat
  /-- What it does, as numbers. -/
  action : List Nat
  state : Nat

/-- An automaton while it is put together. Its states are numbered from
0. -/
structure Automaton where
  states : Nat
  /-- The bytes that branches take. -/
  branchBytes : Nat := 0
  /-- The table, with the latest states first. -/
  known : List Known := []

/-- The place in a table of what a state does: a hash of the numbers. -/
def place (places : Nat) (action : List Nat) : Nat :=
  let mix (hash : UInt64) (n : Nat) : UInt64 := (hash ^^^ UInt64.ofNat n) * 1099511628211
  (action.foldl mix 14695981039346656037).toNat % places

namespace Automaton

def bytes (a : Automaton) : Nat :=
  32 * a.states + a.branchBytes

def addStates (count branchBytes : Nat) : StateM Automaton Unit :=
  modify fun a => { a with states := a.states + count, branchBytes := a.branchBytes + branchBytes }

def forget : StateM Automaton Unit :=
  modify ({ · with known := [] })

/-- The state that does something, which is added unless it is in a
table with so many places. -/
def share (places : Nat) (action : List Nat) (branchBytes : Nat) : StateM Automaton Nat := do
  let a ← get
  let place := place places action
  match (a.known.find? (·.place == place)).filter (·.action == action) with
  | some known => pure known.state
  | none =>
    addStates 1 branchBytes
    modify fun b => { b with known := ⟨place, action, a.states⟩ :: b.known }
    pure a.states

-- ================================================================= sets

/-- The state from which sequences are read forward, up to a last state.
It branches on the first byte, and the states that come next are added
before it. A sequence has at most `length` bytes. -/
def addEndings (last : Nat) : Nat → List ByteSequence → StateM Automaton Nat
  | 0, _ => pure last
  | length + 1, sequences => do
    let heads := heads sequences
    if heads.isEmpty then pure last
    else
      let branches ← heads.mapM fun head => do
        pure [head.first, head.last, ← addEndings last length (following head sequences)]
      share 10000 branches.flatten (8 * heads.length)

/-- Adds the states that read a sequence backward, up to a last state,
and a branch to them. The states of its first byte are nearest to the
last one. -/
def addBeginnings (last : Nat) (sequence : ByteSequence) : StateM Automaton Unit := do
  let _ ← sequence.foldlM (fun next range => share 1000 [next, range.first, range.last] 0) last
  addStates 0 4

end Automaton

-- ============================================================= reading

/-- How an automaton reads a text. -/
inductive ReadingOrder
  | forward
  | backward

namespace ReadingOrder

/-- The number of states before the parts of a pattern, and again after
them. -/
def edge : ReadingOrder → Nat
  | forward => 3
  | backward => 2

/-- Characters in the order in which they are read. -/
def arrange : ReadingOrder → List Char → List Char
  | forward, text => text
  | backward, text => text.reverse

/-- Adds one of a set of characters. Only sequences of the same set share
states. -/
def addOneOf (sequences : List ByteSequence) : ReadingOrder → StateM Automaton Unit
  | forward => do
    Automaton.forget
    let last := (← get).states
    Automaton.addStates 1 0
    let _ ← Automaton.addEndings last 4 sequences
  | backward => do
    Automaton.forget
    let last := (← get).states + 1
    Automaton.addStates 2 0
    sequences.forM (Automaton.addBeginnings last)

def addPart (order : ReadingOrder) : Part → StateM Automaton Unit
  | .states count branchBytes => Automaton.addStates count branchBytes
  | .oneOf sequences => order.addOneOf sequences

/-- An automaton with a further character of a pattern. -/
def addChar (order : ReadingOrder) (c : Char) (a : Automaton) : Automaton :=
  ((Part.ofChar c).forM order.addPart a).2

end ReadingOrder

end DialectDb.Pattern
