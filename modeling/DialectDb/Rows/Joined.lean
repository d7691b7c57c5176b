/-
Joining rows by nested loops. For each outer row, all inner rows are
tried in order; an outer row without a match is kept, padded with NULLs,
if the join asks for that.

The next outer row is fetched before the padded row is given out. So a
failure in its place comes first, and the padded row after it. The very
first outer row is fetched when the join is set up, and a failure in its
place is one of the whole query.
-/
import DialectDb.Rows

namespace DialectDb

/-- A join of outer and inner rows. -/
structure Joining where
  /-- What a combined row has to satisfy, if anything. -/
  predicate : Option Formula
  /-- The number of inner columns, if outer rows without a match are
  kept. -/
  padding : Option Nat
  /-- Whether the outer rows are those of the right side. The columns of
  the left side come first all the same. -/
  flipped : Bool

namespace Joining

def combine (j : Joining) (outer inner : Row) : Row :=
  if j.flipped then inner ++ outer else outer ++ inner

/-- Whether a combined row passes. -/
def passes (j : Joining) (row : Row) : Result Bool :=
  match j.predicate with
  | none => .ok true
  | some e => do
    match ← e.eval row with
    | .boolean b => .ok b
    | .null => .ok false
    | value => .error (.typeMismatch (.joinPredicate value))

/-- The rows that an outer row makes with inner rows, and then those
after them, which depend on whether there was a match. -/
def scan (j : Joining) (outer : Row) (matched : Bool) : List Row → (Bool → Rows) → Rows
  | [], rest => .wait fun _ => rest matched
  | inner :: inners, rest =>
    let row := j.combine outer inner
    match j.passes row with
    | .ok true => .next (.ok row) fun _ => j.scan outer true inners rest
    | .ok false => .wait fun _ => j.scan outer matched inners rest
    | .error e => .next (.error e) fun _ => j.scan outer matched inners rest

/-- The row that an outer row makes on its own, if it is kept, and the
rows after it. -/
def pad (j : Joining) (outer : Row) (matched : Bool) (rest : Unit → Rows) : Rows :=
  match j.padding with
  | some width =>
    if matched then .wait rest
    else .next (.ok (j.combine outer (List.replicate width .null))) rest
  | none => .wait rest

/-- The rows after all inner rows were tried with an outer row, given
the outer rows that are left. -/
def proceed (j : Joining) (inner : List Row) (outer : Row) (matched : Bool) : Rows → Rows
  | .done => j.pad outer matched fun _ => .done
  | .wait rest => .wait fun _ => j.proceed inner outer matched (rest ())
  | .next (.error e) rest => .next (.error e) fun _ => j.proceed inner outer matched (rest ())
  | .next (.ok next) rest =>
    j.pad outer matched fun _ =>
      j.scan next false inner fun matched => j.proceed inner next matched (rest ())

def rows (j : Joining) (inner : List Row) : Rows → Result Rows
  | .done => .ok .done
  | .wait rest => j.rows inner (rest ())
  | .next (.error e) _ => .error e
  | .next (.ok outer) rest =>
    .ok (j.scan outer false inner fun matched => j.proceed inner outer matched (rest ()))

end Joining

end DialectDb
