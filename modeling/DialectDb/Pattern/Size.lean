/-
How large a pattern can be. It is refused if one of the automata that it
is compiled into takes more than `sizeLimit` bytes.
-/
import DialectDb.Error
import DialectDb.Pattern.Automaton

namespace DialectDb.Pattern

def sizeLimit : Nat := 10485760

/-- Whether an automaton stays within the limit when characters are
added to it, and then the states after them. It never shrinks, so the
characters after it has become too large are not looked at. -/
def ReadingOrder.fitsWith (order : ReadingOrder) : List Char → Automaton → Bool
  | [], a => a.bytes + 32 * order.edge ≤ sizeLimit
  | c :: text, a => a.bytes ≤ sizeLimit && order.fitsWith text (order.addChar c a)

/-- Whether the automaton of a text stays within the limit. -/
def ReadingOrder.fits (order : ReadingOrder) (text : String) : Bool :=
  order.fitsWith (order.arrange text.toList) { states := order.edge }

/-- The pattern that a text is, unless it is too large. -/
def ofText (text : String) : Result Pattern :=
  if ReadingOrder.forward.fits text && ReadingOrder.backward.fits text then .ok ⟨text⟩
  else .error (.invalid (.patternSize sizeLimit))

end DialectDb.Pattern
