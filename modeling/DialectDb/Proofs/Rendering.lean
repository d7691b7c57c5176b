/-
The tokens of an expression. An expression is a tree; to write it as
tokens, an operand goes between parentheses if its operator binds less
tightly than its place demands, and may go between parentheses anywhere.
`Renders` is that relation, with the demand as a parameter. It is stated
by a table of operators and says nothing of how expressions are read.

Operators between operands group to the left: of the same precedence the
left operand goes without parentheses, and the right one does not. NOT
is written in three ways: before an operand, before LIKE, and before IN,
BETWEEN or the NULL of IS.
-/
import DialectDb.Grammar.Expression

namespace DialectDb

-- =============================================================== table

/-- How tightly an operator between operands binds them. -/
def BinaryOp.tightness : BinaryOp → Nat
  | or => 1
  | and => 2
  | equal | notEqual | like => 4
  | less | lessEqual | greater | greaterEqual => 5
  | add | subtract | concat => 6
  | multiply | divide | remainder => 7

/-- How an operator between operands is written. -/
def BinaryOp.token : BinaryOp → Token
  | or => Keyword.OR
  | and => Keyword.AND
  | like => Keyword.LIKE
  | equal => Sign.equal
  | notEqual => Sign.notEqual
  | less => Sign.less
  | lessEqual => Sign.lessEqual
  | greater => Sign.greater
  | greaterEqual => Sign.greaterEqual
  | add => Sign.plus
  | subtract => Sign.minus
  | concat => Sign.concat
  | multiply => Sign.asterisk
  | divide => Sign.slash
  | remainder => Sign.percent

/-- How tightly IS NULL, IN and BETWEEN bind what stands before them. -/
def testTightness : Nat := 4

/-- How an operator before its operand is written, and how tightly it
binds it. IS NULL stands behind its operand. -/
def UnaryOp.before? : UnaryOp → Option (Token × Nat)
  | not => some (Keyword.NOT, 3)
  | identity => some (Sign.plus, 10)
  | negate => some (Sign.minus, 10)
  | isNull => none

-- ============================================================ rendering

/-- Lists of tokens with commas between them. -/
def commaSeparated : List (List Token) → List Token
  | [] => []
  | first :: rest => first ++ rest.flatMap fun tokens => .sign .comma :: tokens

/-- A list of tokens is no longer than what it stands in with commas. -/
theorem length_le_commaSeparated {lists : List (List Token)} {tokens : List Token}
    (h : tokens ∈ lists) : tokens.length ≤ (commaSeparated lists).length := by
  cases lists with
  | nil => cases h
  | cons first rest =>
      unfold commaSeparated
      rw [List.length_append]
      rcases List.mem_cons.mp h with rfl | h
      · omega
      · have hsub := List.sublist_flatten_of_mem
          (List.mem_map_of_mem (f := fun tokens : List Token => .sign .comma :: tokens) h)
        have hlength := hsub.length_le
        rw [List.length_cons, ← List.flatMap_def] at hlength
        omega

/-- The NOT of a test that is negated. -/
def negation (negated : Bool) : List Token :=
  if negated then [.keyword .NOT] else []

/-- The tokens of an operand that contains no other. Among upsert
assignments the name `excluded` is taken, so no column of a table of
that name can be written there. -/
inductive Leaf (upsert : Bool) : Expr → List Token → Prop
  | integer {text : String} (digits : text.toList.all Text.isDigit = true)
      (fits : Double.digitsValue text.toList ≤ Int64.maxValue.toInt) :
      Leaf upsert (.literal (.integer (Int64.ofNat (Double.digitsValue text.toList))))
        [.number text]
  | float {text : String} {d : Double} (digits : text.toList.all Text.isDigit = false)
      (value : Double.ofText? text = some d) :
      Leaf upsert (.literal (.float d)) [.number text]
  | string (text : String) : Leaf upsert (.literal (.string text)) [.string text]
  | true : Leaf upsert (.literal (.boolean true)) [.keyword .TRUE]
  | false : Leaf upsert (.literal (.boolean false)) [.keyword .FALSE]
  | null : Leaf upsert (.literal .null) [.keyword .NULL]
  | parameter (name : String) : Leaf upsert (.parameter (.named name)) [.parameter name]
  | column {token : Token} {name : String} (named : Parser.nameOf? token = some name) :
      Leaf upsert (.column none name) [token]
  | qualified {table : String} {token : Token} {name : String}
      (named : Parser.nameOf? token = some name) (free : upsert = true → table ≠ "excluded") :
      Leaf upsert (.column (some table) name) [.ident table, .sign .period, token]

/-- The tokens of an expression in a place that demands a precedence:
its operator, unless it is between parentheses, binds at least as
tightly. -/
inductive Renders (upsert : Bool) : Nat → Expr → List Token → Prop
  | leaf {demand : Nat} {e : Expr} {tokens : List Token} (h : Leaf upsert e tokens) :
      Renders upsert demand e tokens
  | call {demand : Nat} (name : String) (arguments : List (Expr × List Token))
      (h : ∀ a ∈ arguments, Renders upsert 0 a.1 a.2) :
      Renders upsert demand (.call name (arguments.map Prod.fst))
        (.ident name :: .sign .openParen ::
          (commaSeparated (arguments.map Prod.snd) ++ [.sign .closeParen]))
  | parentheses {demand : Nat} {e : Expr} {tokens : List Token} (h : Renders upsert 0 e tokens) :
      Renders upsert demand e (.sign .openParen :: (tokens ++ [.sign .closeParen]))
  | unary {demand tightness : Nat} {op : UnaryOp} {token : Token} {e : Expr}
      {tokens : List Token} (hop : op.before? = some (token, tightness))
      (hdemand : demand ≤ tightness) (h : Renders upsert tightness e tokens) :
      Renders upsert demand (.unary op e) (token :: tokens)
  | binary {demand : Nat} (op : BinaryOp) {l r : Expr} {left right : List Token}
      (hdemand : demand ≤ op.tightness) (hl : Renders upsert op.tightness l left)
      (hr : Renders upsert (op.tightness + 1) r right) :
      Renders upsert demand (.binary op l r) (left ++ op.token :: right)
  | notLike {demand : Nat} {l r : Expr} {left right : List Token}
      (hdemand : demand ≤ BinaryOp.like.tightness)
      (hl : Renders upsert BinaryOp.like.tightness l left)
      (hr : Renders upsert (BinaryOp.like.tightness + 1) r right) :
      Renders upsert demand (.unary .not (.binary .like l r))
        (left ++ .keyword .NOT :: .keyword .LIKE :: right)
  | isNull {demand : Nat} (negated : Bool) {e : Expr} {tokens : List Token}
      (hdemand : demand ≤ testTightness) (h : Renders upsert testTightness e tokens) :
      Renders upsert demand (Grammar.negatedIf negated (.unary .isNull e))
        (tokens ++ .keyword .IS :: (negation negated ++ [.keyword .NULL]))
  | inList {demand : Nat} (negated : Bool) {e : Expr} {tokens : List Token}
      {items : List (Expr × List Token)} (hdemand : demand ≤ testTightness)
      (h : Renders upsert testTightness e tokens) (hne : items ≠ [])
      (hitems : ∀ i ∈ items, Renders upsert 0 i.1 i.2) :
      Renders upsert demand (Grammar.negatedIf negated (.inList e (items.map Prod.fst)))
        (tokens ++ (negation negated ++ .keyword .IN :: .sign .openParen ::
          (commaSeparated (items.map Prod.snd) ++ [.sign .closeParen])))
  | between {demand : Nat} (negated : Bool) {e low high : Expr}
      {tokens lower upper : List Token} (hdemand : demand ≤ testTightness)
      (h : Renders upsert testTightness e tokens)
      (hlow : Renders upsert BinaryOp.add.tightness low lower)
      (hhigh : Renders upsert BinaryOp.add.tightness high upper) :
      Renders upsert demand (Grammar.negatedIf negated (Grammar.between e low high))
        (tokens ++ (negation negated ++ .keyword .BETWEEN ::
          (lower ++ .keyword .AND :: upper)))

-- ========================================================== first tokens

/-- Tokens that open an expression: there is one, and it opens no query
and closes no list. -/
def OpensExpression (tokens : List Token) : Prop :=
  ∃ token rest, tokens = token :: rest ∧
    token ≠ .keyword .SELECT ∧ token ≠ .keyword .WITH ∧ token ≠ .sign .closeParen

theorem OpensExpression.append {tokens : List Token} (h : OpensExpression tokens)
    (rest : List Token) : OpensExpression (tokens ++ rest) := by
  obtain ⟨token, tail, rfl, hother⟩ := h
  exact ⟨token, tail ++ rest, rfl, hother⟩

theorem opensExpression_of_name {token : Token} {name : String} {rest : List Token}
    (h : Parser.nameOf? token = some name) : OpensExpression (token :: rest) := by
  refine ⟨token, rest, rfl, ?_, ?_, ?_⟩ <;>
  · rintro rfl
    cases h

theorem Leaf.opensExpression {upsert : Bool} {e : Expr} {tokens : List Token}
    (h : Leaf upsert e tokens) : OpensExpression tokens := by
  cases h with
  | column named => exact opensExpression_of_name named
  | _ => exact ⟨_, _, rfl, nofun, nofun, nofun⟩

/-- The tokens of an expression open one. -/
theorem Renders.opensExpression {upsert : Bool} {demand : Nat} {e : Expr} {tokens : List Token}
    (h : Renders upsert demand e tokens) : OpensExpression tokens := by
  induction h with
  | leaf h => exact h.opensExpression
  | call name arguments _ _ => exact ⟨_, _, rfl, nofun, nofun, nofun⟩
  | parentheses _ _ => exact ⟨_, _, rfl, nofun, nofun, nofun⟩
  | @unary _ _ op token _ _ hop _ _ _ =>
      refine ⟨token, _, rfl, ?_, ?_, ?_⟩ <;>
      · rintro rfl
        cases op <;> cases hop
  | binary op _ _ _ ih _ => exact ih.append _
  | notLike _ _ _ ih _ => exact ih.append _
  | isNull negated _ _ ih => exact ih.append _
  | inList negated _ _ _ _ ih _ => exact ih.append _
  | between negated _ _ _ _ ih _ _ => exact ih.append _

theorem opensExpression_commaSeparated {lists : List (List Token)} (hne : lists ≠ [])
    (h : ∀ tokens ∈ lists, OpensExpression tokens) : OpensExpression (commaSeparated lists) := by
  cases lists with
  | nil => exact absurd rfl hne
  | cons first rest => exact (h first List.mem_cons_self).append _

/-- No expression that is written so is the `*` of all columns. -/
theorem Renders.ne_all {upsert : Bool} {demand : Nat} {e : Expr} {tokens : List Token}
    (h : Renders upsert demand e tokens) : e ≠ .all := by
  induction h with
  | leaf h => cases h <;> exact nofun
  | parentheses _ ih => exact ih
  | isNull negated _ _ _ => cases negated <;> exact nofun
  | inList negated _ _ _ _ _ _ => cases negated <;> exact nofun
  | between negated _ _ _ _ _ _ _ => cases negated <;> exact nofun
  | _ => exact nofun

end DialectDb
