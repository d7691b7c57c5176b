/-
Readers make well-formed expressions. Most of them only put together what
their parts have made. The row that was to be inserted is referred to in
two places, `excluded.c` and `VALUES(c)`, and both look at whether upsert
assignments are read around them.
-/
import DialectDb.Grammar.Expression
import DialectDb.Proofs.Making
import DialectDb.Proofs.WellFormed

namespace DialectDb

open DialectDb.Parser

/-- A grammar whose expressions and queries are well-formed, both where
upsert assignments are read and where they are not. -/
structure Grammar.MakesWellFormed (g : Grammar) : Prop where
  expression : ∀ upsert min, Makes upsert (g.expression min) (Expr.WellFormed upsert)
  select : ∀ upsert, Makes upsert g.select (Select.WellFormed upsert)

namespace Grammar

variable {g : Grammar} {upsert : Bool}

-- =========================================================== operators

theorem wellFormed_negatedIf (negated : Bool) {e : Expr} (h : e.WellFormed upsert) :
    (negatedIf negated e).WellFormed upsert := by
  cases negated with
  | false => exact h
  | true => exact h

/-- What an operator makes of two well-formed operands is well-formed. -/
def InfixWellFormed (upsert : Bool) (op : Infix) : Prop :=
  ∀ {l r : Expr}, l.WellFormed upsert → r.WellFormed upsert → (op.apply l r).WellFormed upsert

theorem makes_infixOp (min : Nat) :
    Makes upsert (infixOp? min) (IfSome (InfixWellFormed upsert)) := by
  refine moves_peek.then fun token => .ite (fun _ => ?_) fun _ => ?_
  · refine moves_peekSecond.then fun second => .ite (fun _ => ?_) fun _ => makes_none
    refine moves_next.then fun _ => moves_next.then fun _ => ?_
    exact makes_some fun hl hr => ⟨hl, hr⟩
  · refine moves_nextMap.then fun op => makes_pure ?_
    intro _ hop l r hl hr
    obtain ⟨op, -, rfl⟩ := Option.map_eq_some_iff.mp hop
    exact ⟨hl, hr⟩

theorem moves_negatable (word : Keyword) : Moves upsert (negatable? word) := by
  refine moves_peek.then fun token => moves_peekSecond.then fun second => ?_
  refine .ite (fun _ => ?_) fun _ => ?_
  · exact moves_next.then fun _ => moves_expect.then fun _ => makes_pure trivial
  · refine moves_peek.then fun token => .ite (fun _ => ?_) fun _ => makes_pure trivial
    exact moves_expect.then fun _ => makes_pure trivial

theorem moves_atQuery : Moves upsert atQuery :=
  moves_peek.then fun _ => makes_pure trivial

/-- A test that makes a well-formed expression of a well-formed
operand. -/
def TestWellFormed (upsert : Bool) (test : Expr → Expr) : Prop :=
  ∀ {e : Expr}, e.WellFormed upsert → (test e).WellFormed upsert

/-- Where a test that IS opens is read, NULL or NOT NULL is behind IS, and
it is the test for NULL or its negation. -/
def ReadsIsNull (g : Grammar) : Prop :=
  ∀ {around : Surroundings} {min : Nat} {test : Expr → Expr} {c d : Cursor},
    (postfixOp? g min).perform around c = .ok (some test, d) →
    c.tokens.head? = some (Token.keyword .IS) →
    (c.tokens = .keyword .IS :: .keyword .NULL :: d.tokens ∧ test = .unary .isNull) ∨
      (c.tokens = .keyword .IS :: .keyword .NOT :: .keyword .NULL :: d.tokens ∧
        test = fun e => .unary .not (.unary .isNull e))

theorem readsIsNull (g : Grammar) : ReadsIsNull g := by
  intro around min test c d h hfirst
  have hdeclines {word : Keyword} (hword : word ≠ .IS) {found : Option Bool} {c₁ : Cursor}
      (hperform : (negatable? word).perform around c = .ok (found, c₁)) :
      found = none ∧ c₁ = c := by
    unfold negatable? at hperform
    obtain ⟨_, _, hpeek, hperform⟩ := perform_bind_eq_ok.mp hperform
    obtain ⟨rfl, rfl, -⟩ := perform_peek_eq_ok.mp hpeek
    obtain ⟨_, _, hsecond, hperform⟩ := perform_bind_eq_ok.mp hperform
    cases hsecond
    rw [hfirst, if_neg (by simp)] at hperform
    obtain ⟨_, _, hpeek, hperform⟩ := perform_bind_eq_ok.mp hperform
    obtain ⟨rfl, rfl, -⟩ := perform_peek_eq_ok.mp hpeek
    rw [hfirst, if_neg (by simpa using Ne.symm hword)] at hperform
    cases hperform
    exact ⟨rfl, rfl⟩
  unfold postfixOp? at h
  split at h
  · cases h
  obtain ⟨_, _, hin, hnone⟩ := perform_bind_eq_ok.mp h
  obtain ⟨rfl, rfl⟩ := hdeclines (by decide) hin
  dsimp only at hnone
  obtain ⟨_, _, hbetween, htest⟩ := perform_bind_eq_ok.mp hnone
  obtain ⟨rfl, rfl⟩ := hdeclines (by decide) hbetween
  dsimp only at htest
  obtain ⟨_, c₁, his, hrest⟩ := perform_bind_eq_ok.mp htest
  rcases perform_accept his with ⟨rfl, htaken⟩ | ⟨-, hother, -⟩
  · obtain ⟨negated, c₂, hnot, hrest⟩ := perform_bind_eq_ok.mp hrest
    obtain ⟨_, c₃, hnull, hrest⟩ := perform_bind_eq_ok.mp hrest
    cases hrest
    have htokens := perform_expect hnull
    rcases perform_accept hnot with ⟨rfl, hnegated⟩ | ⟨rfl, -, rfl⟩
    · exact .inr ⟨by rw [htaken, hnegated, htokens], rfl⟩
    · exact .inl ⟨by rw [htaken, htokens], rfl⟩
  · exact absurd hfirst hother

variable (hg : MakesWellFormed g)
include hg

theorem makes_membership (negated : Bool) :
    Makes upsert (membership g negated) (TestWellFormed upsert) := by
  refine makes_parenthesized (moves_atQuery.then fun query => .ite (fun _ => ?_) fun _ => ?_)
  · refine (hg.select upsert).bind fun q hq => makes_pure fun he => ?_
    exact wellFormed_negatedIf negated ⟨he, hq⟩
  · refine (makes_commaList (hg.expression upsert 0)).bind fun items hitems => makes_pure fun he => ?_
    exact wellFormed_negatedIf negated ⟨he, (Expr.wellFormedList_iff items).mpr hitems⟩

theorem makes_range (negated : Bool) :
    Makes upsert (range g negated) (TestWellFormed upsert) := by
  refine (hg.expression upsert _).bind fun low hlow => moves_expect.then fun _ => ?_
  refine (hg.expression upsert _).bind fun high hhigh => makes_pure fun he => ?_
  exact wellFormed_negatedIf negated ⟨⟨he, hlow⟩, he, hhigh⟩

theorem makes_postfixOp (min : Nat) :
    Makes upsert (postfixOp? g min) (IfSome (TestWellFormed upsert)) := by
  refine .ite (fun _ => makes_none) fun _ => ?_
  refine (moves_negatable .IN).then fun isIn => ?_
  split
  · exact (makes_membership hg _).some
  refine (moves_negatable .BETWEEN).then fun isBetween => ?_
  split
  · exact (makes_range hg _).some
  refine moves_accept.then fun isIs => .ite (fun _ => ?_) fun _ => makes_none
  refine moves_accept.then fun negated => moves_expect.then fun _ => makes_some fun he => ?_
  exact wellFormed_negatedIf negated he

-- ============================================================ operands

omit hg in
theorem makes_numberLiteral (text : String) :
    Makes upsert (numberLiteral text) (Expr.WellFormed upsert) := by
  refine .ite (fun _ => .ite (fun _ => makes_pure trivial) fun _ => makes_fault) fun _ => ?_
  split
  · exact makes_pure trivial
  · exact makes_fault

theorem makes_arguments :
    Makes upsert (arguments g) fun args => ∀ e ∈ args, e.WellFormed upsert := by
  refine makes_iterate (fun args hargs => ?_) (List.forall_mem_nil _)
  refine moves_accept.then fun closed => .ite (fun _ => makes_none) fun _ => ?_
  refine .when moves_expect ((hg.expression upsert 0).bind fun e he => ?_)
  exact makes_some (forall_mem_concat hargs he)

theorem makes_named (name : String) : Makes upsert (named g name) (Expr.WellFormed upsert) := by
  refine moves_accept.then fun called => .ite (fun _ => ?_) fun _ => ?_
  · refine (makes_arguments hg).bind fun args hargs => .ite (fun _ => makes_fault) fun _ => ?_
    exact makes_pure ((Expr.wellFormedList_iff args).mpr hargs)
  · refine moves_accept.then fun qualified => .ite (fun _ => ?_) fun _ => makes_pure trivial
    refine moves_identifier.then fun column => makes_read fun around haround => ?_
    refine .ite (fun hexcluded => makes_pure ?_) fun _ => makes_pure trivial
    rw [haround] at hexcluded
    exact (Bool.and_eq_true_iff.mp hexcluded).1

theorem makes_keywordOperand (word : Keyword) :
    Makes upsert (keywordOperand g word) (Expr.WellFormed upsert) := by
  unfold keywordOperand
  split
  · exact makes_pure trivial
  · exact makes_pure trivial
  · exact makes_pure trivial
  · exact (makes_parenthesized (hg.select upsert)).map fun q hq => hq
  · refine makes_read fun around haround => ?_
    refine .ite (fun hexcluded => ?_) fun _ => .ite (fun _ => ?_) fun _ => makes_fault
    · rw [haround] at hexcluded
      exact (makes_parenthesized moves_identifier).map fun _ _ => (Bool.and_eq_true_iff.mp hexcluded).2
    · exact makes_pure trivial

theorem makes_operand : Makes upsert (operand g) (Expr.WellFormed upsert) := by
  refine moves_next.then fun token => ?_
  split
  · exact makes_pure trivial
  · exact makes_numberLiteral _
  · exact makes_pure trivial
  · exact makes_pure trivial
  · exact makes_number fun _ => makes_pure trivial
  · exact makes_named hg _
  · exact makes_keywordOperand hg _
  · exact (hg.expression upsert 0).bind fun e he => moves_expect.then fun _ => makes_pure he
  · exact makes_fault

-- ========================================================= expressions

theorem makes_extend (min : Nat) {e : Expr} (he : e.WellFormed upsert) :
    Makes upsert (extend? g min e) (IfSome (Expr.WellFormed upsert)) := by
  refine (makes_postfixOp hg min).bind fun test htest => ?_
  split
  · next test => exact makes_some (htest test rfl he)
  refine (makes_infixOp min).bind fun op hop => ?_
  split
  · next op =>
      refine (hg.expression upsert _).bind fun right hright => ?_
      exact makes_some (hop op rfl he hright)
  · exact makes_none

theorem makes_expressionWith (upsert : Bool) (min : Nat) :
    Makes upsert (expressionWith g min) (Expr.WellFormed upsert) := by
  have hloop : ∀ e, e.WellFormed upsert →
      Makes upsert (iterate (extend? g min) e) (Expr.WellFormed upsert) :=
    fun _ => makes_iterate fun _ => makes_extend hg min
  have hunary : ∀ (op : UnaryOp) e, e.WellFormed upsert → (Expr.unary op e).WellFormed upsert :=
    fun _ _ he => he
  refine moves_nextMap.then fun op => ?_
  split
  · next op => exact ((hg.expression upsert op.precedence).map (hunary op)).bind hloop
  · exact (makes_operand hg).bind hloop

end Grammar

end DialectDb
