/-
Arithmetic on floating point numbers. Each operation computes the exact
result of its finite operands, as a sum, product or quotient of natural
numbers, and rounds it once. The rules for infinities, zeros and NaNs
stand beside, one line each.
-/
import DialectDb.Double

namespace DialectDb.Double

/-- A signed mantissa in units of two to a smaller exponent. -/
def aligned (negative : Bool) (mantissa : Nat) (exponent unit : Int) : Int :=
  let size : Nat := mantissa * power 2 (exponent - unit)
  if negative then -size else size

/-- The number with its sign changed; a NaN's too. -/
def neg (d : Double) : Double :=
  ofMagnitude (!d.negative) d.magnitude

def abs (d : Double) : Double :=
  ofMagnitude false d.magnitude

/-- A sum. An exact zero is negative only if both operands are. -/
def add (a b : Double) : Double :=
  match a.view, b.view with
  | .nan, _ | _, .nan => nan
  | .infinite s, .infinite t => if s = t then infinity s else nan
  | .infinite s, _ => infinity s
  | _, .infinite t => infinity t
  | .finite s m e, .finite t n f =>
    let unit := min e f
    let sum := aligned s m e unit + aligned t n f unit
    if sum = 0 then zero (s && t) else ofScaled (sum < 0) sum.natAbs unit

/-- A difference: the sum with the opposite. -/
def sub (a b : Double) : Double :=
  add a (neg b)

def mul (a b : Double) : Double :=
  match a.view, b.view with
  | .nan, _ | _, .nan => nan
  | .infinite s, .infinite t => infinity (s != t)
  | .infinite s, .finite t n _ => if n = 0 then nan else infinity (s != t)
  | .finite s m _, .infinite t => if m = 0 then nan else infinity (s != t)
  | .finite s m e, .finite t n f => ofScaled (s != t) (m * n) (e + f)

def div (a b : Double) : Double :=
  match a.view, b.view with
  | .nan, _ | _, .nan => nan
  | .infinite _, .infinite _ => nan
  | .infinite s, .finite t _ _ => infinity (s != t)
  | .finite s _ _, .infinite t => zero (s != t)
  | .finite s m e, .finite t n f =>
    if n = 0 then
      if m = 0 then nan else infinity (s != t)
    else ofRatio (s != t) (m * power 2 (e - f)) (n * power 2 (f - e))

/-- The remainder of the division that truncates toward zero. It has the
sign of the dividend, also where it is zero, and is always exact. -/
def rem (a b : Double) : Double :=
  match a.view, b.view with
  | .nan, _ | _, .nan => nan
  | .infinite _, _ => nan
  | .finite .., .infinite _ => a
  | .finite s m e, .finite _ n f =>
    if n = 0 then nan
    else
      let unit := min e f
      ofScaled s (m * power 2 (e - unit) % (n * power 2 (f - unit))) unit

end DialectDb.Double
