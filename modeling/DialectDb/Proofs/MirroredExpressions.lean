/-
Expressions of a text with placeholders and of its copy with values: what
is read from the copy is what is read from the text, bound. A placeholder
is an operand, and so is the value that is written for it; nothing else
in the grammar of expressions tells one from the other.
-/
import DialectDb.Proofs.Binding
import DialectDb.Proofs.Mirroring

namespace DialectDb.Copy

open Token DialectDb.Parser DialectDb.Grammar

variable {k : Copy} {g : Grammar}

/-- The expression of the copy is the one of the text, bound. -/
abbrev Binds (k : Copy) : Expr → Expr → Prop :=
  Gives (Expr.bind k.parameters)

/-- In any copy, what a grammar reads is what it reads from the text,
bound. -/
structure MirrorsGrammar (g : Grammar) : Prop where
  expression : ∀ (k : Copy) (min : Nat),
    k.Mirrors (g.expression min) (g.expression min) k.Binds
  select : ∀ k : Copy, k.Mirrors g.select g.select (Gives (Select.bind k.parameters))

-- ======================================================= expressions bound

theorem binds_all : k.Binds .all .all := rfl

theorem binds_literal (v : Value) : k.Binds (.literal v) (.literal v) := rfl

theorem binds_column (table : Option String) (name : String) :
    k.Binds (.column table name) (.column table name) := rfl

theorem binds_unary {e e' : Expr} (op : UnaryOp) (h : k.Binds e e') :
    k.Binds (.unary op e) (.unary op e') :=
  Result.bind_eq_ok.mpr ⟨e', h, rfl⟩

theorem binds_binary {l l' r r' : Expr} (op : BinaryOp) (hl : k.Binds l l') (hr : k.Binds r r') :
    k.Binds (.binary op l r) (.binary op l' r') :=
  Result.bind_eq_ok.mpr ⟨l', hl, Result.bind_eq_ok.mpr ⟨r', hr, rfl⟩⟩

theorem binds_negatedIf {e e' : Expr} (negated : Bool) (h : k.Binds e e') :
    k.Binds (negatedIf negated e) (negatedIf negated e') := by
  cases negated with
  | false => exact h
  | true => exact binds_unary .not h

theorem bindList_of_forall {es es' : List Expr} (h : List.Forall₂ k.Binds es es') :
    Expr.bindList k.parameters es = .ok es' := by
  rw [Expr.bindList_eq]
  exact Result.mapM_eq_ok.mpr h

theorem binds_inList {e e' : Expr} {items items' : List Expr} (he : k.Binds e e')
    (hitems : List.Forall₂ k.Binds items items') : k.Binds (.inList e items) (.inList e' items') :=
  Result.bind_eq_ok.mpr ⟨e', he, Result.bind_eq_ok.mpr ⟨items', bindList_of_forall hitems, rfl⟩⟩

theorem binds_call {args args' : List Expr} (f : String) (h : List.Forall₂ k.Binds args args') :
    k.Binds (.call f args) (.call f args') :=
  Result.bind_eq_ok.mpr ⟨args', bindList_of_forall h, rfl⟩

theorem binds_exists {q q' : Select} (h : q.bind k.parameters = .ok q') :
    k.Binds (.exists q) (.exists q') :=
  Result.bind_eq_ok.mpr ⟨q', h, rfl⟩

theorem binds_inQuery {e e' : Expr} {q q' : Select} (he : k.Binds e e')
    (hq : q.bind k.parameters = .ok q') : k.Binds (.inQuery e q) (.inQuery e' q') :=
  Result.bind_eq_ok.mpr ⟨q', hq, Result.bind_eq_ok.mpr ⟨e', he, rfl⟩⟩

/-- Only a star is bound to a star. -/
theorem binds_eq_all_iff {e e' : Expr} (h : k.Binds e e') : e' = .all ↔ e = .all := by
  constructor
  · rintro rfl
    cases e with
    | all => rfl
    | parameter placeholder =>
        change placeholder.bind _ = _ at h
        unfold Placeholder.bind at h
        split at h <;> cases h
    | _ => simp [Binds, Gives, Expr.bind, Result.map_eq_ok, Result.bind_eq_ok] at h
  · rintro rfl
    cases h
    rfl

theorem binds_contains_all {es es' : List Expr} (h : List.Forall₂ k.Binds es es') :
    es'.contains .all = es.contains .all := by
  induction h with
  | nil => rfl
  | cons he _ ih =>
      rw [List.contains_cons, List.contains_cons, ih]
      congr 1
      rw [Bool.eq_iff_iff, beq_iff_eq, beq_iff_eq, eq_comm, binds_eq_all_iff he, eq_comm]

-- ============================================================ operators

theorem mirrors_prefixOp (min : Nat) : k.Mirrors (prefixOp? min) (prefixOp? min) Eq := by
  refine (mirrors_nextMap (p := fun _ => True) (fun t ht => ?_) fun t op h => ⟨?_, trivial⟩).imp
    (fun _ => id) (fun _ _ h => h.1) fun _ _ => id
  · have hnone : UnaryOp.ofToken? t = none := by
      cases t, ht using isValue_cases <;> rfl
    rw [hnone]
    rfl
  · obtain ⟨htoken, -⟩ := Option.filter_eq_some_iff.mp h
    rintro rfl
    cases htoken

/-- What an operator between operands makes of bound operands is bound. -/
def BindsInfix (k : Copy) (op op' : Infix) : Prop :=
  op'.precedence = op.precedence ∧
    ∀ {l l' r r' : Expr}, k.Binds l l' → k.Binds r r' → k.Binds (op.apply l r) (op'.apply l' r')

theorem mirrors_infixOp (min : Nat) :
    k.Mirrors (infixOp? min) (infixOp? min) (Option.Rel k.BindsInfix) := by
  refine mirrorsFrom_ifPeek rfl ?_ ?_
  · -- Where the token behind NOT is a value, it is not LIKE.
    refine mirrorsFrom_peekSecond (pure none) (pure none) (fun t ht => ?_)
      (fun t ht => ?_) ?_ fun o => ?_
    · cases t, ht using isValue_cases <;> rfl
    · cases t, ht using isValue_cases <;> rfl
    · exact (mirrors_pure .none).weaken fun _ => And.left
    · refine .ite (fun hlike => ?_) fun _ => (mirrors_pure .none).weaken fun _ h => h.1.1
      obtain ⟨hlike, -⟩ := Bool.and_eq_true_iff.mp hlike
      rw [of_decide_eq_true hlike]
      refine (mirrorsFrom_next_known (t := .keyword .NOT) rfl
        (p := fun tokens => tokens.head? = some (.keyword .LIKE)) ?_).weaken fun tokens h => ?_
      · exact mirrors_next_head rfl (mirrors_pure (.some ⟨rfl, fun hl hr =>
          binds_unary .not (binds_binary .like hl hr)⟩))
      · refine ⟨h.1.1, h.1.2, ?_⟩
        rw [List.head?_tail]
        exact h.2
  · refine (mirrors_nextMap (p := fun _ => True) (fun t ht => ?_) fun t op h => ?_).bind ?_
    · have hnone : BinaryOp.ofToken? t = none := by
        cases t, ht using isValue_cases <;> rfl
      rw [hnone]
      rfl
    · refine ⟨?_, trivial⟩
      obtain ⟨htoken, -⟩ := Option.filter_eq_some_iff.mp h
      rintro rfl
      cases htoken
    · rintro op _ ⟨rfl, -⟩
      refine mirrors_pure ?_
      cases op with
      | none => exact .none
      | some op => exact .some ⟨rfl, binds_binary op⟩

/-- The keyword alone, without NOT. -/
private def unnegated? (word : Keyword) : Parser (Option Bool) := do
  if (← peek) = some (Token.keyword word) then
    expect word
    pure (some false)
  else pure none

private theorem mirrors_unnegated {word : Keyword} (hword : (Token.keyword word).isMark) :
    k.Mirrors (unnegated? word) (unnegated? word) Eq := by
  refine mirrorsFrom_ifPeek (isMark_iff.mp hword).1 ?_ (mirrors_pure rfl)
  exact (MirrorsFrom.then (mirrors_expect hword) fun _ => mirrors_pure rfl).weaken
    fun _ => And.left

/-- NOT and a keyword, or the keyword alone, is taken in both. -/
theorem mirrors_negatable {word : Keyword} (hword : (Token.keyword word).isMark) :
    k.Mirrors (negatable? word) (negatable? word) Eq := by
  have hplain := mirrors_unnegated (k := k) hword
  have hsecond : k.Mirrors (peekSecond >>= fun _ => unnegated? word)
      (peekSecond >>= fun _ => unnegated? word) Eq :=
    mirrorsFrom_peekSecond _ _ (fun _ _ => rfl) (fun _ _ => rfl) hplain
      fun _ => hplain.weaken fun _ => And.left
  have hvalue : ∀ t : Token, t.isValue → ¬some t = some (.keyword word) := by
    rintro _ ht ⟨⟩
    rw [(isMark_iff.mp hword).1] at ht
    cases ht
  refine mirrorsFrom_peek _ _ (fun t ht => ?_) (fun t ht => ?_) hsecond fun o => ?_
  · cases t, ht using isValue_cases <;> rfl
  · cases t, ht using isValue_cases <;> rfl
  · refine mirrorsFrom_peekSecond (unnegated? word) (unnegated? word) (fun t ht => ?_)
      (fun t ht => ?_) (hplain.weaken fun _ => And.left) fun second =>
        .ite (fun hboth => ?_) fun _ => ?_
    · exact if_neg fun h => hvalue t ht (of_decide_eq_true (Bool.and_eq_true_iff.mp h).2)
    · exact if_neg fun h => hvalue t ht (of_decide_eq_true (Bool.and_eq_true_iff.mp h).2)
    · rw [of_decide_eq_true (Bool.and_eq_true_iff.mp hboth).1]
      refine (mirrors_next_head rfl ?_).weaken fun _ => And.left
      exact .then (mirrors_expect hword) fun _ => mirrors_pure rfl
    · exact hplain.weaken fun _ h => h.1.1

/-- Whether a query follows is the same for both. -/
theorem mirrors_atQuery : k.Mirrors atQuery atQuery Eq := by
  refine mirrorsFrom_peek (pure false) (pure false) (fun t ht => ?_) (fun t ht => ?_)
    (mirrors_pure rfl) fun o => (mirrors_pure rfl).weaken fun _ => And.left
  · cases t, ht using isValue_cases <;> rfl
  · cases t, ht using isValue_cases <;> rfl

/-- What a test makes of a bound expression is bound. -/
def BindsTest (k : Copy) (test test' : Expr → Expr) : Prop :=
  ∀ {e e' : Expr}, k.Binds e e' → k.Binds (test e) (test' e')

variable (hg : MirrorsGrammar g)
include hg

theorem mirrors_membership (negated : Bool) :
    k.Mirrors (membership g negated) (membership g negated) k.BindsTest := by
  refine mirrors_parenthesized (.then mirrors_atQuery fun query => .ite (fun _ => ?_) fun _ => ?_)
  · refine .bind (hg.select k) fun q q' hq => mirrors_pure ?_
    exact fun he => binds_negatedIf negated (binds_inQuery he hq)
  · refine .bind (mirrors_commaList (hg.expression k 0)) fun items items' hitems => mirrors_pure ?_
    exact fun he => binds_negatedIf negated (binds_inList he hitems)

theorem mirrors_range (negated : Bool) :
    k.Mirrors (range g negated) (range g negated) k.BindsTest := by
  refine .bind (hg.expression k _) fun low low' hlow => ?_
  refine .then (mirrors_expect rfl) fun _ => ?_
  refine .bind (hg.expression k _) fun high high' hhigh => mirrors_pure ?_
  -- The left side is bound twice, once for each bound.
  intro e e' he
  have hboth : k.Binds (between e low high) (between e' low' high') :=
    binds_binary .and (binds_binary .greaterEqual he hlow) (binds_binary .lessEqual he hhigh)
  exact binds_negatedIf negated hboth

theorem mirrors_postfixOp (min : Nat) :
    k.Mirrors (postfixOp? g min) (postfixOp? g min) (Option.Rel k.BindsTest) := by
  refine .ite (fun _ => mirrors_pure .none) fun _ => ?_
  refine .then (mirrors_negatable rfl) fun isIn => ?_
  cases isIn with
  | some negated => exact (mirrors_membership hg negated).map fun _ _ => .some
  | none =>
      refine .then (mirrors_negatable rfl) fun isBetween => ?_
      cases isBetween with
      | some negated => exact (mirrors_range hg negated).map fun _ _ => .some
      | none =>
          refine .then (mirrors_accept rfl) fun _ => .ite (fun _ => ?_) fun _ => mirrors_pure .none
          refine .then (mirrors_accept rfl) fun negated => ?_
          refine .then mirrors_expect_null fun _ => mirrors_pure (.some ?_)
          exact fun he => binds_negatedIf negated (binds_unary .isNull he)

-- ============================================================= operands

theorem mirrors_nextArgument {args args' : List Expr} (hargs : List.Forall₂ k.Binds args args') :
    k.Mirrors (nextArgument? g args) (nextArgument? g args')
      (Option.Rel (List.Forall₂ k.Binds)) := by
  have hitem : k.Mirrors (do pure (some (args ++ [← g.expression 0])))
      (do pure (some (args' ++ [← g.expression 0]))) (Option.Rel (List.Forall₂ k.Binds)) :=
    .bind (hg.expression k 0) fun e e' he =>
      mirrors_pure (.some (List.rel_append hargs (.cons he .nil)))
  refine .then (mirrors_accept rfl) fun closed => .ite (fun _ => mirrors_pure .none) fun _ => ?_
  cases hargs with
  | nil => exact hitem
  | cons _ _ => exact .then (mirrors_expect rfl) fun _ => hitem

theorem mirrors_arguments :
    k.Mirrors (arguments g) (arguments g) (List.Forall₂ k.Binds) :=
  mirrors_iterate (fun _ _ => mirrors_nextArgument hg) .nil

theorem mirrors_named (name : String) : k.Mirrors (named g name) (named g name) k.Binds := by
  refine .then (mirrors_accept rfl) fun called => .ite (fun _ => ?_) fun _ => ?_
  · refine .bind (mirrors_arguments hg) fun args args' hargs => ?_
    rw [binds_contains_all hargs]
    exact .ite (fun _ => .of_fails (fails_fault _)) fun _ => mirrors_pure (binds_call name hargs)
  · refine .then mirrorsFrom_accept_period fun qualified => ?_
    cases qualified with
    | false => exact mirrors_pure (binds_column none name)
    | true =>
        refine .then mirrorsFrom_identifier fun column => .read ?_
        exact .ite (fun _ => mirrors_pure rfl) fun _ => mirrors_pure (binds_column _ _)

theorem mirrors_keywordOperand (word : Keyword) :
    k.Mirrors (keywordOperand g word) (keywordOperand g word) k.Binds := by
  unfold keywordOperand
  split
  · exact mirrors_pure (binds_literal _)
  · exact mirrors_pure (binds_literal _)
  · exact mirrors_pure (binds_literal _)
  · exact (mirrors_parenthesized (hg.select k)).map fun _ _ => binds_exists
  · refine .read (.ite (fun _ => ?_) fun _ => .ite (fun _ => ?_) fun _ => ?_)
    · exact (mirrors_parenthesized mirrors_identifier).map fun _ _ h => h ▸ rfl
    · exact mirrors_pure (binds_column none _)
    · exact .of_fails (fails_fault _)

omit hg in
theorem mirrors_numberLiteral (text : String) :
    k.Mirrors (numberLiteral text) (numberLiteral text) k.Binds := by
  unfold numberLiteral
  split
  · exact .ite (fun _ => mirrors_pure (binds_literal _)) fun _ => .of_fails (fails_fault _)
  · cases Double.ofText? text with
    | some d => exact mirrors_pure (binds_literal _)
    | none => exact .of_fails (fails_fault _)

/-- A placeholder is read from the text, and its value from the copy. -/
theorem mirrors_operand : k.Mirrors (operand g) (operand g) k.Binds := by
  refine mirrorsFrom_next_written (fun t ht => ?_) ?_
  · have hbehind : t ≠ .sign .period → ∀ tokens, Unannounced (t :: tokens) → Unannounced tokens :=
      fun hperiod _ h => h.announced.tail_unannounced hperiod
    cases t with
    | number text => exact (mirrors_numberLiteral text).weaken (hbehind nofun)
    | string text => exact (mirrors_pure (binds_literal _)).weaken (hbehind nofun)
    | parameter name => exact absurd rfl ht
    | ident name => exact (mirrors_named hg name).weaken (hbehind nofun)
    | keyword word => exact (mirrors_keywordOperand hg word).weaken (hbehind nofun)
    | sign mark =>
        cases mark with
        | question => exact absurd rfl ht
        | asterisk => exact (mirrors_pure binds_all).weaken (hbehind nofun)
        | openParen =>
            refine MirrorsFrom.weaken (.bind (hg.expression k 0) fun e e' he => ?_) (hbehind nofun)
            exact .then (mirrors_expect rfl) fun _ => mirrors_pure he
        | _ => exact .of_fails (fails_fault _)
  · intro t placeholder v u c c' e d ht hlookup hv hP hfill hperform
    have hread : k.Binds e (.literal v) ∧ Unannounced d.tokens ∧
        fill? k.parameters d.ordinals d.tokens = some c'.tokens := by
      have hbound : placeholder.bind k.parameters = .ok (.literal v) := by
        unfold Placeholder.bind
        rw [hlookup]
      unfold placeholder? at ht
      split at ht
      · cases ht
        cases hperform
        exact ⟨hbound, hP.announced.tail_unannounced nofun, hfill⟩
      · cases ht
        cases hperform
        exact ⟨hbound, hP.announced.tail_unannounced nofun, hfill⟩
      · cases ht
    refine ⟨.literal v, c', ?_, hread⟩
    cases v with
    | null =>
        cases hv
        rfl
    | boolean b => cases b <;> cases hv <;> rfl
    | float d => cases hv
    | string s =>
        cases hv
        rfl
    | integer i =>
        dsimp only [Value.token?] at hv
        split at hv
        · next hnonneg =>
            cases hv
            show (numberLiteral (toString i.toInt.toNat)).perform _ c' = _
            rw [numberLiteral_toString hnonneg]
            rfl
        · cases hv

-- ========================================================== expressions

theorem mirrors_extend (min : Nat) {e e' : Expr} (he : k.Binds e e') :
    k.Mirrors (extend? g min e) (extend? g min e') (Option.Rel k.Binds) := by
  refine .bind (mirrors_postfixOp hg min) fun test test' htest => ?_
  cases htest with
  | some htest => exact mirrors_pure (.some (htest he))
  | none =>
      refine .bind (mirrors_infixOp min) fun op op' hop => ?_
      cases hop with
      | none => exact mirrors_pure .none
      | @some op op' hop =>
          obtain ⟨hprecedence, happly⟩ := hop
          dsimp only
          rw [hprecedence]
          refine .bind (hg.expression k _) fun right right' hright => ?_
          exact mirrors_pure (.some (happly he hright))

theorem mirrors_expressionWith (min : Nat) :
    k.Mirrors (expressionWith g min) (expressionWith g min) k.Binds := by
  have hloop : ∀ e e', k.Binds e e' →
      k.Mirrors (iterate (extend? g min) e) (iterate (extend? g min) e') k.Binds :=
    fun _ _ => mirrors_iterate fun _ _ => mirrors_extend hg min
  refine .then (mirrors_prefixOp min) fun op => ?_
  cases op with
  | none => exact .bind (mirrors_operand hg) hloop
  | some op =>
      refine .bind ((hg.expression k op.precedence).map fun _ _ => binds_unary op) hloop

end DialectDb.Copy
