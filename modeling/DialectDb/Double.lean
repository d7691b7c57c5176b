/-
Floating point numbers of 64 bits, held as their bits. Two of them are
the same value exactly when their bits agree, which is the identity that
sorting, grouping and DISTINCT need: it tells 0.0 from -0.0 and makes a
NaN equal to itself.

`view` reads the bits as a number: a sign, and a natural mantissa times
a power of two. Everything numeric is defined on that view in exact
arithmetic, and rounded once (`ofRatio`), so that the results are those
of the standard's correctly rounded operations by construction.
-/

namespace DialectDb

/-- A 64-bit floating point number, identified with its bits. -/
structure Double where
  bits : UInt64
deriving DecidableEq, Hashable

namespace Double

-- ============================================================== powers

def power (base : Nat) (exponent : Int) : Nat :=
  base.pow exponent.toNat

/-- The weight of the sign bit, two to the 63. -/
def signWeight : Nat := 9223372036854775808

/-- The weight of the last bit of the exponent field, two to the 52. -/
def fieldWeight : Nat := 4503599627370496

-- ================================================================ view

/-- What the bits of a number mean. The finite number is `mantissa`
times two to the `exponent`, with the given sign. -/
inductive View
  | nan
  | infinite (negative : Bool)
  | finite (negative : Bool) (mantissa : Nat) (exponent : Int)

/-- Whether the sign bit is set. -/
def negative (d : Double) : Bool :=
  signWeight ≤ d.bits.toNat

/-- The bits without the sign. They order the numbers of one sign by
their distance from zero, and the infinity comes after all of them. -/
def magnitude (d : Double) : Nat :=
  d.bits.toNat % signWeight

def infinityMagnitude : Nat := 2047 * fieldWeight

def isNaN (d : Double) : Bool :=
  infinityMagnitude < d.magnitude

/-- The number with a given sign and magnitude. -/
def ofMagnitude (negative : Bool) (magnitude : Nat) : Double :=
  ⟨UInt64.ofNat (if negative then signWeight + magnitude else magnitude)⟩

def nan : Double := ofMagnitude false (infinityMagnitude + fieldWeight / 2)

def infinity (negative : Bool) : Double := ofMagnitude negative infinityMagnitude

def zero (negative : Bool) : Double := ofMagnitude negative 0

def view (d : Double) : View :=
  let field : Nat := d.magnitude / fieldWeight
  let fraction : Nat := d.magnitude % fieldWeight
  if field = 2047 then
    if fraction = 0 then .infinite d.negative else .nan
  else if field = 0 then .finite d.negative fraction (-1074)
  else .finite d.negative (fieldWeight + fraction) ((field : Int) - 1075)

-- ============================================================ rounding

/-- The natural number nearest to a quotient; halves go to the even
neighbour. -/
def roundQuotient (num den : Nat) : Nat :=
  let floor := num / den
  let twice := 2 * (num % den)
  if twice < den || (twice == den && floor % 2 == 0) then floor else floor + 1

/-- The exponent of the greatest power of two that a quotient of
positive numbers reaches. -/
def floorLog (num den : Nat) : Int :=
  let estimate : Int := num.log2 - den.log2
  if den * power 2 estimate ≤ num * power 2 (-estimate) then estimate else estimate - 1

/-- The number nearest to a quotient, with a sign. The mantissa has 53
bits unless the number is so small that its unit is the least one; past
the greatest finite number the result is infinite. A mantissa that
rounds up to the next power of two carries into the exponent field,
where it belongs. -/
def ofRatio (negative : Bool) (num den : Nat) : Double :=
  if num = 0 then zero negative
  else
    let unit := max (floorLog num den - 52) (-1074)
    let mantissa := roundQuotient (num * power 2 (-unit)) (den * power 2 unit)
    ofMagnitude negative (min infinityMagnitude ((unit + 1074).toNat * fieldWeight + mantissa))

/-- The number nearest to a mantissa times a power of two. -/
def ofScaled (negative : Bool) (mantissa : Nat) (exponent : Int) : Double :=
  ofRatio negative (mantissa * power 2 exponent) (power 2 (-exponent))

def ofInt (i : Int) : Double :=
  ofRatio (i < 0) i.natAbs 1

/-- The integer that a number is, if it is one. -/
def toInt? (d : Double) : Option Int :=
  match d.view with
  | .finite negative mantissa exponent =>
    let den := power 2 (-exponent)
    if mantissa % den = 0 then
      let size : Nat := mantissa * power 2 exponent / den
      some (if negative then -size else size)
    else none
  | _ => none

-- ============================================================== orders

/-- The magnitude with its sign: the numeric order on everything but the
NaNs, with the two zeros in one place. -/
def rank (d : Double) : Int :=
  if d.negative then -(d.magnitude : Int) else d.magnitude

/-- Numeric comparison; a NaN compares with nothing. -/
def compare? (a b : Double) : Option Ordering :=
  if a.isNaN || b.isNaN then none else some (compare a.rank b.rank)

/-- The place of a number in the total order of the standard: negative
NaNs, the negative numbers, -0.0, 0.0, the positive numbers, NaNs. -/
def totalRank (d : Double) : Int :=
  if d.negative then -(d.magnitude : Int) - 1 else d.magnitude

def totalCompare (a b : Double) : Ordering :=
  compare a.totalRank b.totalRank

end Double

end DialectDb
