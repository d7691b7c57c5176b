/-
The grammar of expressions, by precedence climbing: an operand is read,
and then every operator that binds at least as tightly as asked for,
each with its right operand. Operators of higher precedence are taken
further down. An operator to the left of another of its precedence binds
first, so its right operand is read one level tighter.

Expressions and queries contain each other. What is inside is read by a
`Grammar`, which is handed in; the grammar of a given depth is built on
the one of the depth before (`Grammar.Query`).
-/
import DialectDb.Expr
import DialectDb.Grammar.Parser

namespace DialectDb

/-- The readers of what expressions and queries contain: an expression
whose operators have at least a given precedence, and a query. -/
structure Grammar where
  expression : Nat → Parser Expr
  select : Parser Select

-- ========================================================== precedence

/-- How tightly an operator binds its operands. -/
def BinaryOp.precedence : BinaryOp → Nat
  | or => 1
  | and => 2
  | equal | notEqual | like => 4
  | greater | greaterEqual | less | lessEqual => 5
  | add | subtract | concat => 6
  | multiply | divide | remainder => 7

/-- How tightly IS, IN and BETWEEN bind what stands before them. -/
def postfixPrecedence : Nat := 4

/-- How tightly an operator before its operand binds it. -/
def UnaryOp.precedence : UnaryOp → Nat
  | not => 3
  | isNull => postfixPrecedence
  | identity | negate => 10

/-- The operator that a token is before an operand. -/
def UnaryOp.ofToken? : Token → Option UnaryOp
  | .keyword .NOT => some not
  | .sign .minus => some negate
  | .sign .plus => some identity
  | _ => none

/-- The operator that a token is between operands. -/
def BinaryOp.ofToken? : Token → Option BinaryOp
  | .keyword .OR => some or
  | .keyword .AND => some and
  | .keyword .LIKE => some like
  | .sign .equal => some equal
  | .sign .notEqual => some notEqual
  | .sign .greater => some greater
  | .sign .greaterEqual => some greaterEqual
  | .sign .less => some less
  | .sign .lessEqual => some lessEqual
  | .sign .plus => some add
  | .sign .minus => some subtract
  | .sign .concat => some concat
  | .sign .asterisk => some multiply
  | .sign .slash => some divide
  | .sign .percent => some remainder
  | _ => none

namespace Grammar

open DialectDb.Parser

-- ============================================================ operators

def prefixOp? (min : Nat) : Parser (Option UnaryOp) :=
  nextMap? fun token => (UnaryOp.ofToken? token).filter (min ≤ ·.precedence)

/-- An operator between two operands: its precedence and what it makes
of them. -/
structure Infix where
  precedence : Nat
  apply : Expr → Expr → Expr

/-- Takes an operator between operands, if it binds tightly enough. NOT
is one together with LIKE. -/
def infixOp? (min : Nat) : Parser (Option Infix) := do
  if (← peek) = some (Token.keyword .NOT) then
    if (← peekSecond) = some (Token.keyword .LIKE) && min ≤ BinaryOp.like.precedence then
      let _ ← next
      let _ ← next
      pure (some ⟨BinaryOp.like.precedence, fun l r => .unary .not (.binary .like l r)⟩)
    else pure none
  else
    let op ← nextMap? fun token => (BinaryOp.ofToken? token).filter (min ≤ ·.precedence)
    pure (op.map fun op => ⟨op.precedence, .binary op⟩)

/-- Takes a keyword, or NOT and the keyword, and tells which. -/
def negatable? (word : Keyword) : Parser (Option Bool) := do
  if (← peek) = some (Token.keyword .NOT) && (← peekSecond) = some (Token.keyword word) then
    let _ ← next
    expect word
    pure (some true)
  else if (← peek) = some (Token.keyword word) then
    expect word
    pure (some false)
  else pure none

/-- An expression, or its negation. -/
def negatedIf (negated : Bool) (e : Expr) : Expr :=
  if negated then .unary .not e else e

/-- The test of BETWEEN. -/
def between (e low high : Expr) : Expr :=
  .binary .and (.binary .greaterEqual e low) (.binary .lessEqual e high)

def atQuery : Parser Bool := do
  let token ← peek
  pure (token = some (Token.keyword .SELECT) || token = some (Token.keyword .WITH))

/-- Reads what IN compares with, and gives the test. -/
def membership (g : Grammar) (negated : Bool) : Parser (Expr → Expr) :=
  parenthesized do
    if ← atQuery then
      let query ← g.select
      pure fun e => negatedIf negated (.inQuery e query)
    else
      let items ← commaList (g.expression 0)
      pure fun e => negatedIf negated (.inList e items)

/-- Reads the bounds of BETWEEN, and gives the test. They are read above
the precedence of AND, which separates them. -/
def range (g : Grammar) (negated : Bool) : Parser (Expr → Expr) := do
  let low ← g.expression BinaryOp.add.precedence
  expect Keyword.AND
  let high ← g.expression BinaryOp.add.precedence
  pure fun e => negatedIf negated (between e low high)

/-- Reads an operator after its operand, if it binds tightly enough:
[NOT] IN, [NOT] BETWEEN, IS [NOT] NULL. -/
def postfixOp? (g : Grammar) (min : Nat) : Parser (Option (Expr → Expr)) := do
  if postfixPrecedence < min then pure none
  else
    match ← negatable? .IN with
    | some negated => some <$> membership g negated
    | none =>
      match ← negatable? .BETWEEN with
      | some negated => some <$> range g negated
      | none =>
        if ← accept Keyword.IS then
          let negated ← accept Keyword.NOT
          expect Keyword.NULL
          pure (some fun e => negatedIf negated (.unary .isNull e))
        else pure none

-- ============================================================= operands

def numberLiteral (text : String) : Parser Expr :=
  if text.toList.all Text.isDigit then
    let value := Double.digitsValue text.toList
    if value ≤ Int64.maxValue.toInt then pure (.literal (.integer (Int64.ofNat value)))
    else fault (.integerTooLarge text)
  else
    match Double.ofText? text with
    | some d => pure (.literal (.float d))
    | none => fault (.badNumber text)

/-- Reads one more argument of a call, or the parenthesis that closes
them. -/
def nextArgument? (g : Grammar) (args : List Expr) : Parser (Option (List Expr)) := do
  if ← accept Sign.closeParen then pure none
  else
    if !args.isEmpty then expect Sign.comma
    pure (some (args ++ [← g.expression 0]))

def arguments (g : Grammar) : Parser (List Expr) :=
  iterate (nextArgument? g) []

/-- Reads what an identifier starts: a call, a qualified column or a
column. -/
def named (g : Grammar) (name : String) : Parser Expr := do
  if ← accept Sign.openParen then
    let args ← arguments g
    if args.contains .all && name != "count" then fault .misplacedStar
    else pure (.call name args)
  else if ← accept Sign.period then
    let column ← identifier
    if (← read).upsert && name = "excluded" then pure (.excluded column)
    else pure (.column (some name) column)
  else pure (.column none name)

/-- Reads an operand that starts with a keyword. -/
def keywordOperand (g : Grammar) (word : Keyword) : Parser Expr := do
  match word with
  | .TRUE => pure (.literal (.boolean true))
  | .FALSE => pure (.literal (.boolean false))
  | .NULL => pure (.literal .null)
  | .EXISTS => .exists <$> parenthesized g.select
  | word =>
    if word = .VALUES && (← read).upsert then .excluded <$> parenthesized identifier
    else if word.isUnreserved then pure (.column none word.word)
    else fault (.expectedOperand (.keyword word))

/-- Reads an operand: a literal, a placeholder, a column, a call, a
subquery, or an expression between parentheses. -/
def operand (g : Grammar) : Parser Expr := do
  match ← next with
  | .sign .asterisk => pure .all
  | .number text => numberLiteral text
  | .string text => pure (.literal (.string text))
  | .parameter name => pure (.parameter (.named name))
  | .sign .question =>
    let cursor ← get
    set { cursor with ordinals := cursor.ordinals + 1 }
    pure (.parameter (.positional cursor.ordinals))
  | .ident name => named g name
  | .keyword word => keywordOperand g word
  | .sign .openParen =>
    let e ← g.expression 0
    expect Sign.closeParen
    pure e
  | found => fault (.expectedOperand found)

-- ========================================================== expressions

/-- Reads one operator after an expression, with its right operand if it
has one, and applies it. -/
def extend? (g : Grammar) (min : Nat) (e : Expr) : Parser (Option Expr) := do
  match ← postfixOp? g min with
  | some apply => pure (some (apply e))
  | none =>
    match ← infixOp? min with
    | some op =>
      let right ← g.expression (op.precedence + 1)
      pure (some (op.apply e right))
    | none => pure none

/-- Reads an expression whose operators have at least a given
precedence. -/
def expressionWith (g : Grammar) (min : Nat) : Parser Expr := do
  let first ←
    match ← prefixOp? min with
    | some op => .unary op <$> g.expression op.precedence
    | none => operand g
  iterate (extend? g min) first

end Grammar

end DialectDb
