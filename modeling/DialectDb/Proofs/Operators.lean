/-
How operators are read. What the loop of `expressionWith` does with the
tokens behind an expression depends on the operator that they open: it
takes one that binds at least as tightly as asked for, and otherwise
stops. `Stops` says that there is no such operator, nor anything that
would make a name before it a call or a qualified column; then the loop
leaves all tokens (`takes_extend_none`). For each kind of operator there
is a rule that says what the loop takes and makes of it.

NOT is where two tokens have to be looked at: behind an expression it is
a part of IN, BETWEEN or LIKE, and alone it is no operator at all.
-/
import DialectDb.Proofs.Reading
import DialectDb.Proofs.Rendering

namespace DialectDb.Grammar

open DialectDb.Parser

variable {around : Surroundings} {g : Grammar}

-- ============================================================== the table

/-- The precedences by which expressions are read are those of the
table. -/
theorem precedence_eq_tightness (op : BinaryOp) : op.precedence = op.tightness := by
  cases op <;> rfl

/-- Nor is a test refused that the table allows for. -/
theorem postfixPrecedence_not_lt {min : Nat} (h : min ≤ testTightness) :
    ¬postfixPrecedence < min :=
  Nat.not_lt.mpr h

/-- An operator is read from the token it is written as. -/
theorem ofToken_token (op : BinaryOp) : BinaryOp.ofToken? op.token = some op := by
  cases op <;> rfl

theorem eq_token_of_ofToken {token : Token} {op : BinaryOp}
    (h : BinaryOp.ofToken? token = some op) : token = op.token := by
  unfold BinaryOp.ofToken? at h
  split at h <;> cases h <;> rfl

theorem ofToken_before {op : UnaryOp} {token : Token} {tightness : Nat}
    (h : op.before? = some (token, tightness)) :
    UnaryOp.ofToken? token = some op ∧ op.precedence = tightness := by
  cases op <;> cases h <;> exact ⟨rfl, rfl⟩

-- ========================================================= what may follow

/-- Whether tokens open IS NULL, IN or BETWEEN, negated or not. -/
def opensTest : List Token → Bool
  | .keyword .NOT :: .keyword .IN :: _ => true
  | .keyword .NOT :: .keyword .BETWEEN :: _ => true
  | .keyword .IN :: _ => true
  | .keyword .BETWEEN :: _ => true
  | .keyword .IS :: _ => true
  | _ => false

/-- How tightly the operator binds that tokens open, if they open one
that can follow an expression. -/
def operatorAt? (tokens : List Token) : Option Nat :=
  if opensTest tokens then some testTightness
  else
    match tokens with
    | .keyword .NOT :: .keyword .LIKE :: _ => some BinaryOp.like.tightness
    | token :: _ => (BinaryOp.ofToken? token).map BinaryOp.tightness
    | [] => none

/-- The token of an operator between operands opens that operator. -/
theorem operatorAt_token (op : BinaryOp) (rest : List Token) :
    operatorAt? (op.token :: rest) = some op.tightness := by
  cases op <;> rfl

/-- Tokens before which an expression ends that is read at a precedence:
no operator of at least this precedence is there, and nothing that would
make a name before it a call or a qualified column. -/
structure Stops (min : Nat) (tokens : List Token) : Prop where
  operator : ∀ tightness, operatorAt? tokens = some tightness → tightness < min
  parenthesis : tokens.head? ≠ some (.sign .openParen)
  period : tokens.head? ≠ some (.sign .period)

/-- Where an expression ends, one that is read at a higher precedence
does. -/
theorem Stops.mono {min min' : Nat} {tokens : List Token} (h : Stops min tokens)
    (hmin : min ≤ min') : Stops min' tokens :=
  ⟨fun q hq => Nat.lt_of_lt_of_le (h.operator q hq) hmin, h.parenthesis, h.period⟩

/-- Where an operator is, an expression ends that is read above its
precedence. -/
theorem stops_of_operatorAt {tightness : Nat} {tokens : List Token}
    (h : operatorAt? tokens = some tightness) : Stops (tightness + 1) tokens := by
  refine ⟨fun q hq => ?_, fun hfirst => ?_, fun hfirst => ?_⟩
  · rw [h] at hq
    cases hq
    exact Nat.lt_succ_self _
  · match tokens, hfirst with
    | .sign .openParen :: rest, rfl => cases h
  · match tokens, hfirst with
    | .sign .period :: rest, rfl => cases h

/-- No operator that can follow an expression has the precedence of one
that stands before its operand. -/
theorem operatorAt_ne_before {op : UnaryOp} {token : Token} {tightness : Nat}
    (hop : op.before? = some (token, tightness)) (tokens : List Token) :
    operatorAt? tokens ≠ some tightness := by
  -- NOT and the signs are alone at their levels
  have hbefore : tightness = 3 ∨ tightness = 10 := by
    cases op <;> cases hop <;> decide
  intro h
  unfold operatorAt? at h
  split at h
  · cases h
    exact absurd hbefore (by decide)
  · split at h
    · cases h
      exact absurd hbefore (by decide)
    · obtain ⟨binary, -, rfl⟩ := Option.map_eq_some_iff.mp h
      cases binary <;> exact absurd hbefore (by decide)
    · cases h

/-- So an operand of such an operator ends where the whole does. -/
theorem Stops.operand {op : UnaryOp} {token : Token} {min tightness : Nat} {tokens : List Token}
    (h : Stops (min + 1) tokens) (hop : op.before? = some (token, tightness))
    (hmin : min ≤ tightness) : Stops tightness tokens := by
  refine ⟨fun q hq => ?_, h.parenthesis, h.period⟩
  have hlt := h.operator q hq
  have hne : q ≠ tightness := fun heq => operatorAt_ne_before hop tokens (heq ▸ hq)
  omega

theorem stops_comma (min : Nat) (tokens : List Token) : Stops min (.sign .comma :: tokens) :=
  ⟨nofun, nofun, nofun⟩

theorem stops_closeParen (min : Nat) (tokens : List Token) :
    Stops min (.sign .closeParen :: tokens) :=
  ⟨nofun, nofun, nofun⟩

theorem stops_nil (min : Nat) : Stops min [] :=
  ⟨nofun, nofun, nofun⟩

-- ====================================================== tests of operands

/-- A keyword is not there, negated or not. -/
theorem takes_negatable_none (hend : around.failure = none) {word : Keyword}
    {tokens : List Token}
    (hnegated : ¬(tokens.head? = some (.keyword .NOT) ∧ tokens[1]? = some (.keyword word)))
    (hplain : tokens.head? ≠ some (.keyword word)) :
    Takes around (negatable? word) tokens none tokens := by
  unfold negatable?
  refine takes_bind (takes_peek_head hend) (takes_bind takes_peekSecond ?_)
  have hcondition : ¬(decide (tokens.head? = some (.keyword .NOT))
      && decide (tokens[1]? = some (.keyword word))) = true := by
    simpa using hnegated
  rw [if_neg hcondition]
  refine takes_bind (takes_peek_head hend) ?_
  rw [if_neg hplain]
  exact takes_pure

/-- A keyword is there, negated or not, and is taken. -/
theorem takes_negatable {word : Keyword} (hword : word ≠ .NOT) (negated : Bool)
    (rest : List Token) :
    Takes around (negatable? word) (negation negated ++ .keyword word :: rest) (some negated)
      rest := by
  unfold negatable?
  cases negated with
  | true =>
      refine takes_bind takes_peek (takes_bind takes_peekSecond ?_)
      rw [if_pos (by simp)]
      exact takes_bind takes_next (takes_bind takes_expect takes_pure)
  | false =>
      refine takes_bind takes_peek (takes_bind takes_peekSecond ?_)
      rw [if_neg (by simp [hword])]
      refine takes_bind takes_peek ?_
      rw [if_pos rfl]
      exact takes_bind takes_expect takes_pure

/-- Tokens that open no test are left by each way to read one. -/
theorem not_opensTest {tokens : List Token} (h : opensTest tokens = false) {word : Keyword}
    (hword : word = .IN ∨ word = .BETWEEN) :
    ¬(tokens.head? = some (.keyword .NOT) ∧ tokens[1]? = some (.keyword word))
      ∧ tokens.head? ≠ some (.keyword word) := by
  constructor
  · rintro ⟨hfirst, hsecond⟩
    match tokens, hfirst, hsecond with
    | .keyword .NOT :: .keyword word :: rest, rfl, rfl =>
        rcases hword with rfl | rfl <;> cases h
  · intro hfirst
    match tokens, hfirst with
    | .keyword word :: rest, rfl => rcases hword with rfl | rfl <;> cases h

/-- No test is read where none is, or where it would not bind tightly
enough. -/
theorem takes_postfixOp_none (hend : around.failure = none) {min : Nat} {tokens : List Token}
    (h : opensTest tokens = true → testTightness < min) :
    Takes around (postfixOp? g min) tokens none tokens := by
  unfold postfixOp?
  by_cases hmin : postfixPrecedence < min
  · rw [if_pos hmin]
    exact takes_pure
  · rw [if_neg hmin]
    have hno : opensTest tokens = false := Bool.eq_false_iff.mpr fun hyes => hmin (h hyes)
    obtain ⟨hnotIn, hin⟩ := not_opensTest hno (.inl rfl)
    obtain ⟨hnotBetween, hbetween⟩ := not_opensTest hno (.inr rfl)
    have his : tokens.head? ≠ some (.keyword .IS) := by
      intro hfirst
      match tokens, hfirst with
      | .keyword .IS :: rest, rfl => cases hno
    refine takes_bind (takes_negatable_none hend hnotIn hin) ?_
    refine takes_bind (takes_negatable_none hend hnotBetween hbetween) ?_
    refine takes_bind (takes_accept_false his) ?_
    exact takes_pure

/-- No operator between operands is read where none binds tightly
enough. -/
theorem takes_infixOp_none (hend : around.failure = none) {min : Nat} {tokens : List Token}
    (h : Stops min tokens) : Takes around (infixOp? min) tokens none tokens := by
  unfold infixOp?
  refine takes_bind (takes_peek_head hend) ?_
  by_cases hnot : tokens.head? = some (.keyword .NOT)
  · rw [if_pos hnot]
    refine takes_bind takes_peekSecond ?_
    have hlike : ¬(decide (tokens[1]? = some (.keyword .LIKE))
        && decide (min ≤ BinaryOp.like.precedence)) = true := by
      intro hcondition
      simp only [Bool.and_eq_true, decide_eq_true_eq] at hcondition
      obtain ⟨hsecond, hmin⟩ := hcondition
      match tokens, hnot, hsecond with
      | .keyword .NOT :: .keyword .LIKE :: rest, rfl, rfl =>
          exact absurd hmin (Nat.not_le_of_lt (h.operator _ rfl))
    rw [if_neg hlike]
    exact takes_pure
  · rw [if_neg hnot]
    refine takes_bind (takes_nextMap_none fun token htoken => ?_) takes_pure
    rw [Option.filter_eq_none_iff]
    intro op hop
    match tokens, htoken with
    | token :: rest, rfl =>
        have htightness := h.operator op.tightness (eq_token_of_ofToken hop ▸ operatorAt_token op rest)
        rw [precedence_eq_tightness]
        simpa using htightness

theorem takes_extend_none (hend : around.failure = none) {min : Nat} {tokens : List Token}
    (h : Stops min tokens) (e : Expr) : Takes around (extend? g min e) tokens none tokens := by
  have htest : opensTest tokens = true → testTightness < min := by
    intro hyes
    refine h.operator _ ?_
    unfold operatorAt?
    rw [if_pos hyes]
  refine takes_bind (takes_postfixOp_none hend htest) ?_
  exact takes_bind (takes_infixOp_none hend h) takes_pure

theorem takes_extend_binary (hend : around.failure = none) {min : Nat} (op : BinaryOp)
    (hmin : min ≤ op.tightness) {l r : Expr} {tokens rest : List Token}
    (hr : Takes around (g.expression (op.tightness + 1)) tokens r rest) :
    Takes around (extend? g min l) (op.token :: tokens) (some (.binary op l r)) rest := by
  have htest : opensTest (op.token :: tokens) = true → testTightness < min := by
    cases op <;> exact nofun
  have hnot : op.token ≠ .keyword .NOT := by
    cases op <;> exact nofun
  refine takes_bind (takes_postfixOp_none hend htest) ?_
  have hop : Takes around (infixOp? min) (op.token :: tokens)
      (some ⟨op.precedence, .binary op⟩) tokens := by
    unfold infixOp?
    refine takes_bind takes_peek ?_
    rw [if_neg (by simpa using hnot)]
    refine takes_bind (takes_nextMap (a := op) ?_) takes_pure
    rw [ofToken_token, Option.filter_some, if_pos (by simpa [precedence_eq_tightness] using hmin)]
  refine takes_bind hop (takes_bind ?_ takes_pure)
  rw [precedence_eq_tightness]
  exact hr

theorem takes_extend_notLike (hend : around.failure = none) {min : Nat}
    (hmin : min ≤ BinaryOp.like.tightness) {l r : Expr} {tokens rest : List Token}
    (hr : Takes around (g.expression (BinaryOp.like.tightness + 1)) tokens r rest) :
    Takes around (extend? g min l) (.keyword .NOT :: .keyword .LIKE :: tokens)
      (some (.unary .not (.binary .like l r))) rest := by
  refine takes_bind (takes_postfixOp_none hend nofun) ?_
  have hop : Takes around (infixOp? min) (.keyword .NOT :: .keyword .LIKE :: tokens)
      (some ⟨BinaryOp.like.precedence, fun l r => .unary .not (.binary .like l r)⟩) tokens := by
    unfold infixOp?
    refine takes_bind takes_peek ?_
    rw [if_pos rfl]
    refine takes_bind takes_peekSecond ?_
    rw [if_pos (by simpa [precedence_eq_tightness] using hmin)]
    exact takes_bind takes_next (takes_bind takes_next takes_pure)
  exact takes_bind hop (takes_bind hr takes_pure)

theorem takes_extend_test {min : Nat} {e : Expr} {apply : Expr → Expr} {tokens rest : List Token}
    (h : Takes around (postfixOp? g min) tokens (some apply) rest) :
    Takes around (extend? g min e) tokens (some (apply e)) rest :=
  takes_bind h takes_pure

/-- IS NULL and IS NOT NULL are read. -/
theorem takes_isNull (hend : around.failure = none) {min : Nat} (hmin : min ≤ testTightness)
    (negated : Bool) (rest : List Token) :
    Takes around (postfixOp? g min) (.keyword .IS :: (negation negated ++ .keyword .NULL :: rest))
      (some fun e => negatedIf negated (.unary .isNull e)) rest := by
  unfold postfixOp?
  rw [if_neg (postfixPrecedence_not_lt hmin)]
  refine takes_bind (takes_negatable_none hend (by simp) (by simp)) ?_
  refine takes_bind (takes_negatable_none hend (by simp) (by simp)) ?_
  refine takes_bind takes_accept ?_
  cases negated with
  | true => exact takes_bind takes_accept (takes_bind takes_expect takes_pure)
  | false => exact takes_bind (takes_accept_false nofun) (takes_bind takes_expect takes_pure)

/-- [NOT] IN is read with its list. -/
theorem takes_inList {min : Nat} (hmin : min ≤ testTightness)
    (negated : Bool) {items : List Expr} {tokens rest : List Token}
    (hopens : OpensExpression tokens)
    (h : Takes around (commaList (g.expression 0)) tokens items (.sign .closeParen :: rest)) :
    Takes around (postfixOp? g min)
      (negation negated ++ .keyword .IN :: .sign .openParen :: tokens)
      (some fun e => negatedIf negated (.inList e items)) rest := by
  unfold postfixOp?
  rw [if_neg (postfixPrecedence_not_lt hmin)]
  refine takes_bind (takes_negatable (by decide) negated _) ?_
  refine takes_map (takes_parenthesized ?_)
  obtain ⟨token, tail, rfl, hselect, hwith, -⟩ := hopens
  have hquery : Takes around atQuery (token :: tail) false (token :: tail) := by
    refine takes_bind takes_peek ?_
    have hno : (decide (some token = some (.keyword .SELECT))
        || decide (some token = some (.keyword .WITH))) = false := by
      simpa using ⟨hselect, hwith⟩
    rw [hno]
    exact takes_pure
  exact takes_bind hquery (takes_bind h takes_pure)

/-- [NOT] BETWEEN is read with its bounds. -/
theorem takes_between (hend : around.failure = none) {min : Nat} (hmin : min ≤ testTightness)
    (negated : Bool) {low high : Expr} {lower upper rest : List Token}
    (hlow : Takes around (g.expression BinaryOp.add.tightness) lower low
      (.keyword .AND :: upper))
    (hhigh : Takes around (g.expression BinaryOp.add.tightness) upper high rest) :
    Takes around (postfixOp? g min) (negation negated ++ .keyword .BETWEEN :: lower)
      (some fun e => negatedIf negated (between e low high)) rest := by
  unfold postfixOp?
  rw [if_neg (postfixPrecedence_not_lt hmin)]
  refine takes_bind (takes_negatable_none hend ?_ ?_) ?_
  · cases negated <;> simp [negation]
  · cases negated <;> simp [negation]
  refine takes_bind (takes_negatable (by decide) negated _) (takes_map ?_)
  exact takes_bind hlow (takes_bind takes_expect (takes_bind hhigh takes_pure))

end DialectDb.Grammar
