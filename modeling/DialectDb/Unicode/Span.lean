/-
Sets of code points and maps between them, written down as the runs
that the character standard's data files consist of. A set is a list of
inclusive spans; a map is a list of shifts, each of which moves an
arithmetic progression of code points by a fixed distance. Every table
of this folder is one of the two, so a membership test, a mapped code
point and the code points mapped to it each have exactly one definition.
-/

namespace DialectDb.Unicode

-- ============================================================== spans

/-- A set of code points, as inclusive spans. -/
abbrev Spans := List (Nat × Nat)

/-- Whether a code point lies in one of the spans. -/
def Spans.holds (spans : Spans) (code : Nat) : Bool :=
  spans.any fun span => span.1 ≤ code && code ≤ span.2

-- ============================================================= shifts

/-- One run of a code point map: `first`, `first + step`, … up to `last`
go to `target`, `target + step`, … -/
structure Shift where
  first : Nat
  last : Nat
  step : Nat
  target : Nat

/-- Whether the run moves a code point. -/
def Shift.covers (shift : Shift) (code : Nat) : Bool :=
  shift.first ≤ code && code ≤ shift.last && (code - shift.first) % shift.step == 0

/-- Where a map sends a code point; outside all of its runs it is the
identity. -/
def Shift.apply (shifts : List Shift) (code : Nat) : Nat :=
  match shifts.find? (·.covers code) with
  | some shift => shift.target + (code - shift.first)
  | none => code

/-- The code point that the run moves to a given one, if any. -/
def Shift.source? (shift : Shift) (code : Nat) : Option Nat :=
  if shift.target ≤ code && shift.covers (shift.first + (code - shift.target)) then
    some (shift.first + (code - shift.target))
  else none

/-- The code points that the runs of a map move to a given one. -/
def Shift.sources (shifts : List Shift) (code : Nat) : List Nat :=
  shifts.filterMap (·.source? code)

end DialectDb.Unicode
