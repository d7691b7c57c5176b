/-
Floating point numbers as decimal text. `ofText?` reads a decimal as the
nearest number; of an exponent that is far beyond all numbers only the
first digits count. `text` writes the shortest decimal that reads back
as the same number and, among those, the nearest one.

The writing is a search: on the grid of decimals with one digit, then
two, and so on, the two neighbours of the number are tested for lying in
the interval of reals that round to it. The first grid with a hit gives
the digits. Seventeen digits always suffice.
-/
import DialectDb.Text
import DialectDb.Double

namespace DialectDb.Double

-- ============================================================= reading

/-- Puts decimal digits behind a number. -/
def appendDigits (n : Nat) (digits : List Char) : Nat :=
  digits.foldl (fun n c => 10 * n + (c.toNat - 48)) n

/-- The value of a string of decimal digits, which is halved a number of
times. Each half is much faster to read than the whole. -/
def valueInParts : Nat → List Char → Nat
  | 0, digits => appendDigits 0 digits
  | halvings + 1, digits =>
    let (left, right) := digits.splitAt (digits.length / 2)
    valueInParts halvings left * power 10 right.length + valueInParts halvings right

/-- The value of a string of decimal digits. A string that is longer
than 63 digits is read in parts of 32 to 63. -/
def digitsValue (digits : List Char) : Nat :=
  valueInParts (digits.length.log2 - 5) digits

theorem appendDigits_shift (n : Nat) (digits : List Char) :
    appendDigits n digits = n * power 10 digits.length + appendDigits 0 digits := by
  induction digits generalizing n with
  | nil => simp [appendDigits, power]
  | cons c digits ih =>
    have step (m : Nat) :
        appendDigits m (c :: digits) = appendDigits (10 * m + (c.toNat - 48)) digits := rfl
    have longer : power 10 (c :: digits).length = 10 * power 10 digits.length := by
      simp [power, Nat.pow_succ, Nat.mul_comm]
    rw [step, step, ih, ih (10 * 0 + _), longer, Nat.add_mul, Nat.mul_zero, Nat.zero_add,
      Nat.add_assoc, Nat.mul_comm 10 n, Nat.mul_assoc]

/-- However often it is halved, a string has the value that its digits
give one after the other. -/
theorem valueInParts_eq (halvings : Nat) (digits : List Char) :
    valueInParts halvings digits = appendDigits 0 digits := by
  induction halvings generalizing digits with
  | zero => rfl
  | succ halvings ih =>
    have whole (left right : List Char) : appendDigits 0 (left ++ right)
        = appendDigits 0 left * power 10 right.length + appendDigits 0 right := by
      rw [← appendDigits_shift]
      exact List.foldl_append
    simp only [valueInParts, List.splitAt_eq, ih]
    rw [← whole, List.take_append_drop]

def ofDecimal (negative : Bool) (digits : List Char) (exponent : Int) : Double :=
  let mantissa := digitsValue digits
  if mantissa = 0 then zero negative
  else if 400 < exponent + (Nat.log2 mantissa : Int) / 4 then infinity negative
  else if exponent + (Nat.log2 mantissa : Int) / 3 < -400 then zero negative
  else ofRatio negative (mantissa * power 10 exponent) (power 10 (-exponent))

/-- The value of the digits of an exponent. Once it has reached 65536,
further digits are passed over. -/
def exponentValue (digits : List Char) : Nat :=
  digits.foldl (fun n c => if n < 65536 then 10 * n + (c.toNat - 48) else n) 0

/-- Reads the exponent part of a decimal, if any: the mark, an optional
sign and at least one digit, up to the end. -/
def readExponent? : List Char → Option Int
  | [] => some 0
  | mark :: rest =>
    if mark != 'e' && mark != 'E' then none
    else
      let (negative, digits) :=
        match rest with
        | '-' :: digits => (true, digits)
        | '+' :: digits => (false, digits)
        | digits => (false, digits)
      if digits.isEmpty || !digits.all Text.isDigit then none
      else
        let value : Nat := exponentValue digits
        some (if negative then -value else value)

/-- Reads digits with an optional point among, before or after them, and
an optional exponent. -/
def readDecimal? (negative : Bool) (chars : List Char) : Option Double := do
  let (whole, rest) := chars.span Text.isDigit
  let (fraction, rest) :=
    match rest with
    | '.' :: rest => rest.span Text.isDigit
    | rest => ([], rest)
  if whole.isEmpty && fraction.isEmpty then none
  else
    let exponent ← readExponent? rest
    some (ofDecimal negative (whole ++ fraction) (exponent - fraction.length))

/-- Reads a number from the whole of a text: an optional sign, then a
decimal, or one of the words `inf`, `infinity` and `nan` in any case. -/
def ofText? (text : String) : Option Double :=
  let (negative, chars) :=
    match text.toList with
    | '-' :: chars => (true, chars)
    | '+' :: chars => (false, chars)
    | chars => (false, chars)
  match readDecimal? negative chars with
  | some d => some d
  | none =>
    let word := String.ofList (chars.map Char.toLower)
    if word = "inf" || word = "infinity" then some (infinity negative)
    else if word = "nan" then some (ofMagnitude negative nan.magnitude)
    else none

-- ===================================================== shortest decimal

/-- A positive decimal: `digits`, read as a natural number, times ten to
the `exponent`. -/
structure Decimal where
  digits : Nat
  exponent : Int

def Decimal.compareScaled (d : Decimal) (mantissa : Nat) (exponent : Int) : Ordering :=
  compare (d.digits * power 10 d.exponent * power 2 (-exponent))
    (mantissa * power 2 exponent * power 10 (-d.exponent))

/-- The least `t` such that the positive number is below ten to the
`t`. -/
def decimalLength (mantissa : Nat) (exponent : Int) : Int :=
  let estimate := ((mantissa.log2 : Int) + exponent) * 30103 / 100000
  let below (t : Int) : Bool := Decimal.compareScaled ⟨1, t⟩ mantissa exponent == .gt
  if below estimate then estimate
  else if below (estimate + 1) then estimate + 1
  else estimate + 2

/-- Whether a decimal lies in the interval of reals that round to the
number. Its upper end is half a unit away. So is its lower end, except
at a power of two, below which the units are half as large. The ends
belong to it iff the mantissa is even. -/
def Decimal.roundsTo (d : Decimal) (mantissa : Nat) (exponent : Int) : Bool :=
  let below := if mantissa = fieldWeight then 1 else 2
  let low := d.compareScaled (4 * mantissa - below) (exponent - 2)
  let high := d.compareScaled (4 * mantissa + 2) (exponent - 2)
  if mantissa % 2 = 0 then low != .lt && high != .gt else low == .gt && high == .lt

/-- The decimal of `count` digits that stands for a number of the given
decimal length, if the grid has one: the neighbour that rounds to it,
the nearer of two, the upper one at the same distance. -/
def onGrid? (mantissa : Nat) (exponent length : Int) (count : Nat) : Option Decimal :=
  let unit := length - count
  let floor := mantissa * power 2 exponent * power 10 (-unit)
    / (power 2 (-exponent) * power 10 unit)
  let lower : Decimal := ⟨floor, unit⟩
  let upper : Decimal := ⟨floor + 1, unit⟩
  match lower.roundsTo mantissa exponent, upper.roundsTo mantissa exponent with
  | true, true =>
    let middle : Decimal := ⟨2 * floor + 1, unit⟩
    some (if middle.compareScaled (2 * mantissa) exponent == .gt then lower else upper)
  | true, false => some lower
  | false, true => some upper
  | false, false => none

/-- The shortest decimal that reads back as the positive number. -/
def shortest (mantissa : Nat) (exponent : Int) : Decimal :=
  let length := decimalLength mantissa exponent
  ((List.range 17).findSome? fun n => onGrid? mantissa exponent length (n + 1)).getD
    ⟨mantissa, 0⟩

-- ============================================================= writing

/-- A positive decimal in the notation for values: with a point and at
least one digit on both of its sides if the number is at least 1e-4 and
below 1e16, otherwise with an exponent, and no point unless digits
follow it. -/
def Decimal.text (d : Decimal) : String :=
  let all := Nat.toDigits 10 d.digits
  let point : Int := all.length + d.exponent
  let digits := (all.reverse.dropWhile (· == '0')).reverse
  let zeros (n : Int) : List Char := List.replicate n.toNat '0'
  .ofList <|
    if -3 ≤ point && point ≤ 0 then ['0', '.'] ++ zeros (-point) ++ digits
    else if 0 < point && point ≤ 16 then
      let whole := digits.take point.toNat
      let fraction := digits.drop point.toNat
      whole ++ zeros (point - whole.length) ++ ['.'] ++ (if fraction.isEmpty then ['0'] else fraction)
    else
      digits.take 1 ++ (if digits.length ≤ 1 then [] else '.' :: digits.drop 1)
        ++ ['e'] ++ (toString (point - 1)).toList

def text (d : Double) : String :=
  match d.view with
  | .nan => "NaN"
  | .infinite negative => if negative then "-inf" else "inf"
  | .finite negative mantissa exponent =>
    let size := if mantissa = 0 then "0.0" else (shortest mantissa exponent).text
    if negative then "-" ++ size else size

end DialectDb.Double
