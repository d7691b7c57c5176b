/-
Expressions are read without a look at the dialect version. What can be
read into one under a version is only what is read into its queries, so
that all that a reader here does is to hand on what is known of these.
-/
import DialectDb.Grammar.Expression
import DialectDb.Proofs.Constructs
import DialectDb.Proofs.Gating

namespace DialectDb

open DialectDb.Parser

/-- A grammar that reads into expressions and queries only what a dialect
version has, and reads the same under another version. -/
structure Grammar.IsGated (v w : DialectVersion) (g : Grammar) : Prop where
  expression : ∀ min, Gated v w (g.expression min) (Expr.Within v)
  select : Gated v w g.select (Select.Within v)

namespace Grammar

variable {v w : DialectVersion} {g : Grammar}

-- =========================================================== operators

theorem within_negatedIf (negated : Bool) {e : Expr} (h : e.Within v) :
    (negatedIf negated e).Within v := by
  cases negated with
  | false => exact h
  | true => exact Expr.within_unary .not h

theorem gated_prefixOp (min : Nat) : Gated v w (prefixOp? min) fun _ => True :=
  (gated_nextMap (p := fun _ => True) fun _ _ _ => trivial).imp fun _ _ => trivial

/-- What an operator makes of two operands has no other queries than
they. -/
def InfixWithin (v : DialectVersion) (op : Infix) : Prop :=
  ∀ {l r : Expr}, l.Within v → r.Within v → (op.apply l r).Within v

theorem gated_infixOp (min : Nat) : Gated v w (infixOp? min) (IfSome (InfixWithin v)) := by
  refine gated_peek.then fun token => .ite (fun _ => ?_) fun _ => ?_
  · refine gated_peekSecond.then fun second => .ite (fun _ => ?_) fun _ => gated_none
    refine gated_next.then fun _ => gated_next.then fun _ => gated_some fun hl hr => ?_
    exact Expr.within_unary .not (Expr.within_binary .like hl hr)
  · refine (gated_nextMap (p := fun _ => True) fun _ _ _ => trivial).then fun op =>
      gated_pure ?_
    intro _ hop l r hl hr
    obtain ⟨op, -, rfl⟩ := Option.map_eq_some_iff.mp hop
    exact Expr.within_binary op hl hr

theorem gated_negatable (word : Keyword) : Gated v w (negatable? word) fun _ => True := by
  refine gated_peek.then fun token => gated_peekSecond.then fun second => ?_
  refine .ite (fun _ => ?_) fun _ => ?_
  · exact gated_next.then fun _ => gated_expect.then fun _ => gated_pure trivial
  · refine gated_peek.then fun token => .ite (fun _ => ?_) fun _ => gated_pure trivial
    exact gated_expect.then fun _ => gated_pure trivial

theorem gated_atQuery : Gated v w atQuery fun _ => True :=
  gated_peek.then fun _ => gated_pure trivial

/-- A test that adds no other queries to its operand. -/
def TestWithin (v : DialectVersion) (test : Expr → Expr) : Prop :=
  ∀ {e : Expr}, e.Within v → (test e).Within v

variable (hg : IsGated v w g)
include hg

theorem gated_membership (negated : Bool) : Gated v w (membership g negated) (TestWithin v) := by
  refine gated_parenthesized (gated_atQuery.then fun query => .ite (fun _ => ?_) fun _ => ?_)
  · refine hg.select.bind fun q hq => gated_pure ?_
    exact fun he => within_negatedIf negated (Expr.within_inQuery he hq)
  · refine (gated_commaList (hg.expression 0)).bind fun items hitems => gated_pure ?_
    exact fun he => within_negatedIf negated (Expr.within_inList he hitems)

theorem gated_range (negated : Bool) : Gated v w (range g negated) (TestWithin v) := by
  refine (hg.expression _).bind fun low hlow => gated_expect.then fun _ => ?_
  refine (hg.expression _).bind fun high hhigh => gated_pure fun he => ?_
  have hlower := Expr.within_binary .greaterEqual he hlow
  exact within_negatedIf negated
    (Expr.within_binary .and hlower (Expr.within_binary .lessEqual he hhigh))

theorem gated_postfixOp (min : Nat) : Gated v w (postfixOp? g min) (IfSome (TestWithin v)) := by
  refine .ite (fun _ => gated_none) fun _ => ?_
  refine (gated_negatable .IN).then fun isIn => ?_
  split
  · exact (gated_membership hg _).some
  refine (gated_negatable .BETWEEN).then fun isBetween => ?_
  split
  · exact (gated_range hg _).some
  refine gated_accept.then fun isIs => .ite (fun _ => ?_) fun _ => gated_none
  refine gated_accept.then fun negated => gated_expect.then fun _ => gated_some fun he => ?_
  exact within_negatedIf negated (Expr.within_unary .isNull he)

-- ============================================================ operands

omit hg in
theorem gated_numberLiteral (text : String) :
    Gated v w (numberLiteral text) (Expr.Within v) := by
  refine .ite (fun _ => .ite (fun _ => ?_) fun _ => gated_fault) fun _ => ?_
  · exact gated_pure (Expr.within_of_nil rfl)
  · split
    · exact gated_pure (Expr.within_of_nil rfl)
    · exact gated_fault

theorem gated_arguments : Gated v w (arguments g) fun args => ∀ e ∈ args, e.Within v := by
  refine gated_iterate (fun args hargs => ?_) (List.forall_mem_nil _)
  refine gated_accept.then fun closed => .ite (fun _ => gated_none) fun _ => ?_
  refine .when gated_expect ((hg.expression 0).bind fun e he => ?_)
  exact gated_some (forall_mem_concat hargs he)

theorem gated_named (name : String) : Gated v w (named g name) (Expr.Within v) := by
  refine gated_accept.then fun called => .ite (fun _ => ?_) fun _ => ?_
  · refine (gated_arguments hg).bind fun args hargs => .ite (fun _ => gated_fault) fun _ => ?_
    exact gated_pure (Expr.within_call name hargs)
  · refine gated_accept.then fun qualified => .ite (fun _ => ?_) fun _ => ?_
    · refine gated_identifier.then fun column => gated_read (fun _ => rfl) fun around => ?_
      exact .ite (fun _ => gated_pure (Expr.within_of_nil rfl)) fun _ =>
        gated_pure (Expr.within_of_nil rfl)
    · exact gated_pure (Expr.within_of_nil rfl)

theorem gated_keywordOperand (word : Keyword) :
    Gated v w (keywordOperand g word) (Expr.Within v) := by
  unfold keywordOperand
  split
  · exact gated_pure (Expr.within_of_nil rfl)
  · exact gated_pure (Expr.within_of_nil rfl)
  · exact gated_pure (Expr.within_of_nil rfl)
  · exact (gated_parenthesized hg.select).map fun q hq => Expr.within_exists hq
  · refine gated_read (fun _ => rfl) fun around => ?_
    refine .ite (fun _ => ?_) fun _ => .ite (fun _ => ?_) fun _ => ?_
    · exact (gated_parenthesized gated_identifier).map fun _ _ => Expr.within_of_nil rfl
    · exact gated_pure (Expr.within_of_nil rfl)
    · exact gated_fault

theorem gated_operand : Gated v w (operand g) (Expr.Within v) := by
  refine gated_next.then fun token => ?_
  split
  · exact gated_pure (Expr.within_of_nil rfl)
  · exact gated_numberLiteral _
  · exact gated_pure (Expr.within_of_nil rfl)
  · exact gated_pure (Expr.within_of_nil rfl)
  · exact gated_get.then fun _ => gated_set.then fun _ => gated_pure (Expr.within_of_nil rfl)
  · exact gated_named hg _
  · exact gated_keywordOperand hg _
  · exact (hg.expression 0).bind fun e he => gated_expect.then fun _ => gated_pure he
  · exact gated_fault

-- ========================================================= expressions

theorem gated_extend (min : Nat) {e : Expr} (he : e.Within v) :
    Gated v w (extend? g min e) (IfSome (Expr.Within v)) := by
  refine (gated_postfixOp hg min).bind fun test htest => ?_
  split
  · next test => exact gated_some (htest test rfl he)
  refine (gated_infixOp min).bind fun op hop => ?_
  split
  · next op =>
      refine (hg.expression _).bind fun right hright => ?_
      exact gated_some (hop op rfl he hright)
  · exact gated_none

theorem gated_expressionWith (min : Nat) :
    Gated v w (expressionWith g min) (Expr.Within v) := by
  have hloop : ∀ e, e.Within v → Gated v w (iterate (extend? g min) e) (Expr.Within v) :=
    fun _ => gated_iterate fun _ => gated_extend hg min
  refine (gated_prefixOp min).then fun op => ?_
  split
  · next op =>
      exact ((hg.expression op.precedence).map fun _ => Expr.within_unary op).bind hloop
  · exact (gated_operand hg).bind hloop

end Grammar

end DialectDb
