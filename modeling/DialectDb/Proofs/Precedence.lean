/-
Precedence climbing gives back the expression whose tokens it reads.

A rendering is read in one go with everything behind it that the loop
will still take at its level (`Extends`): a left operand is read by the
loop that reads the whole, and only right operands by loops of their
own. The induction on a rendering therefore carries along what follows
it and what the loop makes of that (`Reads`).

An operator before its operand reads the operand at its own precedence
and not above it. That no other operator has the precedence of NOT or of
a sign is what makes its loop stop where the rendering ends.
-/
import DialectDb.Dialect.Catalog
import DialectDb.Grammar.Statement
import DialectDb.Proofs.CommaLists
import DialectDb.Proofs.Operators

namespace DialectDb.Grammar

open DialectDb.Parser

variable {around : Surroundings} {g : Grammar}

-- ================================================================ lists

/-- What is known of the readers of items: each item is taken before a
comma and before a closing parenthesis. -/
def TakesItem (around : Surroundings) (g : Grammar) (item : Expr × List Token) : Prop :=
  TakesBefore around (g.expression 0) (Stops 0) item

/-- After an item comes a comma or what stands behind all items, and
both end an expression. -/
private theorem stops_furtherItems {items : List (Expr × List Token)} {rest : List Token}
    (hrest : Stops 0 rest) : Stops 0 (furtherItems items ++ rest) :=
  follows_furtherItems (stops_comma 0) hrest

/-- An argument of a call is read, behind a comma unless it is the
first. -/
private theorem takes_nextArgument {argument : Expr × List Token} {read : List Expr}
    {tokens rest : List Token} (h : TakesItem around g argument) (hrest : Stops 0 rest)
    (hopens : OpensExpression argument.2)
    (htokens : tokens = (if read = [] then [] else [.sign .comma]) ++ (argument.2 ++ rest)) :
    Takes around (nextArgument? g read) tokens (some (read ++ [argument.1])) rest := by
  subst htokens
  unfold nextArgument?
  cases read with
  | nil =>
      obtain ⟨token, tail, htail, -, -, hclose⟩ := hopens.append rest
      have hother : (argument.2 ++ rest).head? ≠ some (.sign .closeParen) := by
        rw [htail]
        exact fun heq => hclose (Option.some.inj heq)
      refine takes_bind (takes_accept_false hother) ?_
      exact takes_bind (h rest hrest) takes_pure
  | cons first others =>
      refine takes_bind (takes_accept_false nofun) ?_
      exact takes_bind takes_expect (takes_bind (h rest hrest) takes_pure)

/-- Further arguments of a call are read, and the parenthesis that
closes them. -/
private theorem repeats_furtherArguments {arguments : List (Expr × List Token)}
    {rest : List Token} (hitems : ∀ a ∈ arguments, TakesItem around g a)
    (hopens : ∀ a ∈ arguments, OpensExpression a.2) (read : List Expr) (hread : read ≠ []) :
    Repeats around (nextArgument? g) read (furtherItems arguments ++ .sign .closeParen :: rest)
      (read ++ arguments.map Prod.fst) rest := by
  induction arguments generalizing read with
  | nil =>
      rw [List.map_nil, List.append_nil]
      exact .stop (takes_bind takes_accept takes_pure)
  | cons argument arguments ih =>
      obtain ⟨hitem, hitems⟩ := List.forall_mem_cons.mp hitems
      obtain ⟨hopen, hopens⟩ := List.forall_mem_cons.mp hopens
      have hclose := stops_closeParen 0 rest
      rw [furtherItems_cons, List.map_cons, List.append_cons read]
      refine .step (takes_nextArgument hitem (stops_furtherItems hclose) hopen ?_) ?_
        (ih hitems hopens _ (List.append_ne_nil_of_right_ne_nil _ nofun))
      · rw [if_neg hread]
        rfl
      · simp only [List.length_cons, List.length_append]
        omega

theorem takes_arguments {arguments : List (Expr × List Token)} {rest : List Token}
    (hitems : ∀ a ∈ arguments, TakesItem around g a)
    (hopens : ∀ a ∈ arguments, OpensExpression a.2) :
    Takes around (Grammar.arguments g)
      (commaSeparated (arguments.map Prod.snd) ++ .sign .closeParen :: rest)
      (arguments.map Prod.fst) rest := by
  refine Repeats.takes ?_
  cases arguments with
  | nil => exact .stop (takes_bind takes_accept takes_pure)
  | cons argument arguments =>
      obtain ⟨hitem, hitems⟩ := List.forall_mem_cons.mp hitems
      obtain ⟨hopen, hopens⟩ := List.forall_mem_cons.mp hopens
      have hclose := stops_closeParen 0 rest
      rw [commaSeparated_cons]
      refine .step (takes_nextArgument hitem (stops_furtherItems hclose) hopen rfl) ?_
        (repeats_furtherArguments hitems hopens [argument.1] nofun)
      obtain ⟨token, tail, htail, -⟩ := hopen
      rw [htail]
      simp only [List.length_cons, List.length_append]
      omega

-- ============================================================= operands

/-- An identifier is a column, unless a parenthesis or a period
follows. -/
theorem perform_named_column {name : String} {c : Cursor}
    (hparenthesis : c.tokens.head? ≠ some (.sign .openParen))
    (hperiod : c.tokens.head? ≠ some (.sign .period)) :
    (named g name).perform around c = .ok (.column none name, c) := by
  unfold named
  rw [perform_bind (perform_accept_false hparenthesis), if_neg Bool.false_ne_true,
    perform_bind (perform_accept_false hperiod), if_neg Bool.false_ne_true]
  rfl

/-- An unreserved keyword is a column, whatever follows. -/
theorem perform_keywordOperand_column {word : Keyword} (hword : word.isUnreserved = true)
    {c : Cursor} :
    (keywordOperand g word).perform around c = .ok (.column none word.word, c) := by
  unfold keywordOperand
  split
  case h_5 =>
    have hvalues : ¬(decide (word = .VALUES) && around.upsert) = true := by
      intro hcondition
      obtain ⟨hvalues, -⟩ := Bool.and_eq_true_iff.mp hcondition
      rw [of_decide_eq_true hvalues] at hword
      cases hword
    have hread : (read : Parser Surroundings).perform around c = .ok (around, c) := rfl
    rw [perform_bind hread, if_neg hvalues, if_pos hword]
    rfl
  all_goals cases hword

/-- A token that is a name is read as a column, unless a parenthesis or
a period follows. -/
theorem takes_operand_column {token : Token} {name : String} {rest : List Token}
    (h : nameOf? token = some name) (hparenthesis : rest.head? ≠ some (.sign .openParen))
    (hperiod : rest.head? ≠ some (.sign .period)) :
    Takes around (operand g) (token :: rest) (.column none name) rest := by
  refine takes_bind takes_next ?_
  intro c hc
  subst hc
  cases token with
  | ident name =>
      cases h
      exact ⟨c, perform_named_column hparenthesis hperiod, rfl, rfl⟩
  | keyword word =>
      unfold nameOf? at h
      dsimp only at h
      split at h
      · next hword =>
          cases h
          exact ⟨c, perform_keywordOperand_column hword, rfl, rfl⟩
      · cases h
  | _ => cases h

/-- A leaf is read from its tokens. -/
theorem takes_operand_leaf {e : Expr} {tokens rest : List Token}
    (h : Leaf around.upsert e tokens) (hparenthesis : rest.head? ≠ some (.sign .openParen))
    (hperiod : rest.head? ≠ some (.sign .period)) :
    Takes around (operand g) (tokens ++ rest) e rest := by
  cases h with
  | @integer text digits fits =>
      refine takes_bind takes_next ?_
      show Takes around (numberLiteral text) rest _ rest
      unfold numberLiteral
      rw [if_pos digits]
      dsimp only
      rw [if_pos fits]
      exact takes_pure
  | @float text d digits value =>
      refine takes_bind takes_next ?_
      show Takes around (numberLiteral text) rest _ rest
      unfold numberLiteral
      rw [if_neg (Bool.eq_false_iff.mp digits), value]
      exact takes_pure
  | string text => exact takes_bind takes_next takes_pure
  | true => exact takes_bind takes_next takes_pure
  | false => exact takes_bind takes_next takes_pure
  | null => exact takes_bind takes_next takes_pure
  | parameter name => exact takes_bind takes_next takes_pure
  | column named => exact takes_operand_column named hparenthesis hperiod
  | @qualified table token name named free =>
      refine takes_bind takes_next ?_
      refine takes_bind (takes_accept_false nofun) (takes_bind takes_accept ?_)
      refine takes_bind (takes_identifier named) (takes_bind takes_read ?_)
      have hexcluded : ¬(around.upsert && decide (table = "excluded")) = true := by
        simpa using free
      rw [if_neg hexcluded]
      exact takes_pure

/-- A call is read with its arguments, of which `*` is one of count
only. -/
theorem takes_operand_call {name : String} {arguments : List Expr} {tokens rest : List Token}
    (h : Takes around (Grammar.arguments g) tokens arguments rest)
    (hall : .all ∈ arguments → name = "count") :
    Takes around (operand g) (.ident name :: .sign .openParen :: tokens) (.call name arguments)
      rest := by
  refine takes_bind takes_next (takes_bind takes_accept (takes_bind h ?_))
  have hstar : ¬(arguments.contains .all && name != "count") = true := by
    simpa using hall
  rw [if_neg hstar]
  exact takes_pure

theorem takes_operand_parentheses {e : Expr} {tokens rest : List Token}
    (h : Takes around (g.expression 0) tokens e (.sign .closeParen :: rest)) :
    Takes around (operand g) (.sign .openParen :: tokens) e rest :=
  takes_bind takes_next (takes_bind h (takes_bind takes_expect takes_pure))

-- ========================================================== expressions

/-- From an expression, the loop of a level takes tokens, makes another
expression of it and leaves the rest. -/
def Extends (around : Surroundings) (g : Grammar) (min : Nat) (e : Expr) (tokens : List Token)
    (e' : Expr) (rest : List Token) : Prop :=
  ∀ count, tokens.length < count →
    Takes around (iterateWithin (extend? g min) count e) tokens e' rest

/-- Where an expression ends, the loop takes nothing. -/
theorem Extends.stop (hend : around.failure = none) {min : Nat} {e : Expr} {tokens : List Token}
    (h : Stops min tokens) : Extends around g min e tokens e tokens :=
  Repeats.stop (takes_extend_none hend h e)

/-- An operator that is taken goes before what the loop takes then. -/
theorem Extends.step {min : Nat} {e e₁ e' : Expr} {tokens mid rest : List Token}
    (h : Takes around (extend? g min e) tokens (some e₁) mid)
    (hshorter : mid.length < tokens.length) (hloop : Extends around g min e₁ mid e' rest) :
    Extends around g min e tokens e' rest :=
  Repeats.step h hshorter hloop

/-- An expression is an operand with what the loop makes of it. -/
theorem takes_expressionWith_operand {min : Nat} {e e' : Expr} {token : Token}
    {tokens mid rest : List Token} (htoken : UnaryOp.ofToken? token = none)
    (h : Takes around (operand g) (token :: tokens) e mid)
    (hloop : Extends around g min e mid e' rest) :
    Takes around (expressionWith g min) (token :: tokens) e' rest := by
  have hno : Takes around (prefixOp? min) (token :: tokens) none (token :: tokens) := by
    refine takes_nextMap_none ?_
    rintro _ ⟨⟩
    rw [htoken]
    rfl
  exact takes_bind hno (takes_bind h (Repeats.takes hloop))

/-- Or it is an operator with its operand, and what the loop makes of
them. -/
theorem takes_expressionWith_unary {min tightness : Nat} {op : UnaryOp} {e e' : Expr}
    {token : Token} {tokens mid rest : List Token} (hop : op.before? = some (token, tightness))
    (hmin : min ≤ tightness) (h : Takes around (g.expression tightness) tokens e mid)
    (hloop : Extends around g min (.unary op e) mid e' rest) :
    Takes around (expressionWith g min) (token :: tokens) e' rest := by
  obtain ⟨htoken, hprecedence⟩ := ofToken_before hop
  have hyes : Takes around (prefixOp? min) (token :: tokens) (some op) tokens := by
    refine takes_nextMap ?_
    rw [htoken, Option.filter_some, if_pos (by simpa [hprecedence] using hmin)]
  rw [← hprecedence] at h
  exact takes_bind hyes (takes_bind (takes_map h) (Repeats.takes hloop))

-- =========================================================== renderings

/-- What is proved of a rendering: read at a level that its place admits
of, with more tokens behind it, it gives what the loop of that level
makes of the expression with those. -/
def Reads (around : Surroundings) (demand : Nat) (e : Expr) (tokens : List Token) : Prop :=
  ∀ depth min further e' rest, tokens.length ≤ depth → min ≤ demand →
    Stops (demand + 1) further → Extends around (ofDepth depth) min e further e' rest →
    Takes around (expressionWith (ofDepth depth) min) (tokens ++ further) e' rest

/-- Where the expression ends, it is read by itself. -/
theorem Reads.takes (hend : around.failure = none) {demand depth : Nat} {e : Expr}
    {tokens rest : List Token} (h : Reads around demand e tokens)
    (hdepth : tokens.length < depth) (hrest : Stops demand rest) :
    Takes around ((ofDepth depth).expression demand) (tokens ++ rest) e rest := by
  obtain ⟨depth, rfl⟩ := Nat.exists_eq_succ_of_ne_zero (Nat.ne_of_gt (Nat.zero_lt_of_lt hdepth))
  exact h depth demand rest e rest (Nat.le_of_lt_succ hdepth) (Nat.le_refl _)
    (hrest.mono (Nat.le_succ _)) (.stop hend hrest)

/-- The token of a name is no operator. -/
private theorem ofToken_name {token : Token} {name : String} (h : nameOf? token = some name) :
    UnaryOp.ofToken? token = none := by
  cases token with
  | keyword word => cases word <;> first | rfl | cases h
  | sign mark => cases h
  | _ => rfl

/-- A leaf starts with no operator. -/
private theorem ofToken_leaf {upsert : Bool} {e : Expr} {tokens : List Token}
    (h : Leaf upsert e tokens) :
    ∃ token rest, tokens = token :: rest ∧ UnaryOp.ofToken? token = none := by
  cases h with
  | column named => exact ⟨_, _, rfl, ofToken_name named⟩
  | _ => exact ⟨_, _, rfl, rfl⟩

/-- A left operand is read, and the operator behind it, with what
belongs to that, is taken by the same loop. -/
private theorem Reads.extend {demand tightness : Nat} {e e₁ : Expr} {tokens operator : List Token}
    (h : Reads around tightness e tokens) (hdemand : demand ≤ tightness)
    (hoperator : ∀ depth min further, (tokens ++ operator).length ≤ depth → min ≤ demand →
      Stops (demand + 1) further →
      Takes around (extend? (ofDepth depth) min e) (operator ++ further) (some e₁) further)
    (hstops : ∀ further, Stops (tightness + 1) (operator ++ further))
    (hne : operator ≠ []) : Reads around demand e₁ (tokens ++ operator) := by
  intro depth min further e' rest hdepth hmin hfurther hloop
  rw [List.append_assoc]
  refine h depth min (operator ++ further) e' rest ?_ (Nat.le_trans hmin hdemand)
    (hstops further) ?_
  · rw [List.length_append] at hdepth
    omega
  · refine .step (hoperator depth min further hdepth hmin hfurther) ?_ hloop
    have hpositive := List.length_pos_iff.mpr hne
    rw [List.length_append]
    omega

/-- Every item of a list that is read in fewer tokens than the depth is
taken as an item. -/
private theorem takesItem_of_reads (hend : around.failure = none) {depth : Nat}
    {items : List (Expr × List Token)} (h : ∀ i ∈ items, Reads around 0 i.1 i.2)
    (hdepth : (commaSeparated (items.map Prod.snd)).length < depth) :
    ∀ i ∈ items, TakesItem around (ofDepth depth) i := by
  intro item hitem rest hrest
  refine (h item hitem).takes hend (Nat.lt_of_le_of_lt ?_ hdepth) hrest
  exact length_le_commaSeparated (List.mem_map_of_mem hitem)

/-- Every rendering is read. -/
theorem Renders.reads (hend : around.failure = none) {demand : Nat} {e : Expr}
    {tokens : List Token} (h : Renders around.upsert demand e tokens) :
    Reads around demand e tokens := by
  -- on the rendering; that the loop goes on behind each part is in `Reads`
  induction h with
  | leaf h =>
      intro depth min further e' rest _ _ hfurther hloop
      have hoperand := takes_operand_leaf (g := ofDepth depth) h hfurther.parenthesis hfurther.period
      obtain ⟨token, tail, rfl, htoken⟩ := ofToken_leaf h
      exact takes_expressionWith_operand htoken hoperand hloop
  | call name arguments h ih =>
      intro depth min further e' rest hdepth _ _ hloop
      have hall : .all ∈ arguments.map Prod.fst → name = "count" := by
        intro hmem
        obtain ⟨argument, hargument, hstar⟩ := List.mem_map.mp hmem
        exact absurd hstar (h argument hargument).ne_all
      -- the arguments are one level deeper, and without the name and the
      -- parentheses they are short enough for it
      simp only [List.length_cons, List.length_append] at hdepth
      have hitems : ∀ a ∈ arguments, TakesItem around (ofDepth depth) a :=
        takesItem_of_reads hend ih (by omega)
      rw [List.cons_append, List.cons_append, List.append_assoc]
      refine takes_expressionWith_operand rfl (takes_operand_call ?_ hall) hloop
      exact takes_arguments hitems fun a ha => (h a ha).opensExpression
  | @parentheses _ e tokens h ih =>
      intro depth min further e' rest hdepth _ _ hloop
      simp only [List.length_cons, List.length_append] at hdepth
      rw [List.cons_append, List.append_assoc]
      refine takes_expressionWith_operand rfl (takes_operand_parentheses ?_) hloop
      exact ih.takes hend (by omega) (stops_closeParen 0 further)
  | unary hop hdemand h ih =>
      intro depth min further e' rest hdepth hmin hfurther hloop
      refine takes_expressionWith_unary hop (Nat.le_trans hmin hdemand) ?_ hloop
      exact ih.takes hend hdepth (hfurther.operand hop hdemand)
  | binary op hdemand hl hr ihl ihr =>
      refine ihl.extend hdemand ?_ (fun further => ?_) nofun
      · intro depth min further hdepth hmin hfurther
        rw [List.length_append, List.length_cons] at hdepth
        refine takes_extend_binary hend op (Nat.le_trans hmin hdemand) ?_
        exact ihr.takes hend (by omega) (hfurther.mono (by omega))
      · exact stops_of_operatorAt (operatorAt_token op _)
  | notLike hdemand hl hr ihl ihr =>
      refine ihl.extend hdemand ?_ (fun further => ?_) nofun
      · intro depth min further hdepth hmin hfurther
        rw [List.length_append, List.length_cons, List.length_cons] at hdepth
        refine takes_extend_notLike hend (Nat.le_trans hmin hdemand) ?_
        exact ihr.takes hend (by omega) (hfurther.mono (by omega))
      · exact stops_of_operatorAt rfl
  | isNull negated hdemand h ih =>
      refine ih.extend hdemand ?_ (fun further => ?_) nofun
      · intro depth min further _ hmin _
        rw [List.cons_append, List.append_assoc]
        exact takes_extend_test (takes_isNull hend (Nat.le_trans hmin hdemand) negated further)
      · exact stops_of_operatorAt rfl
  | @inList _ negated _ _ items hdemand h hne hitems ih ihitems =>
      refine ih.extend hdemand ?_ (fun further => ?_) ?_
      · intro depth min further hdepth hmin _
        simp only [List.length_cons, List.length_append] at hdepth
        have hread : ∀ i ∈ items, TakesItem around (ofDepth depth) i :=
          takesItem_of_reads hend ihitems (by omega)
        have hopens : OpensExpression (commaSeparated (items.map Prod.snd)) := by
          refine opensExpression_commaSeparated (by simpa using hne) fun tokens htokens => ?_
          obtain ⟨item, hitem, rfl⟩ := List.mem_map.mp htokens
          exact (hitems item hitem).opensExpression
        simp only [List.append_assoc, List.cons_append, List.nil_append]
        exact takes_extend_test (takes_inList (Nat.le_trans hmin hdemand) negated
          (hopens.append _)
          (takes_commaList (stops_comma 0) hread hne (stops_closeParen 0 _) nofun))
      · cases negated <;> exact stops_of_operatorAt rfl
      · cases negated <;> exact nofun
  | between negated hdemand h hlow hhigh ih ihlow ihhigh =>
      refine ih.extend hdemand ?_ (fun further => ?_) ?_
      · intro depth min further hdepth hmin hfurther
        simp only [List.length_cons, List.length_append] at hdepth
        simp only [List.append_assoc, List.cons_append]
        -- the AND between the bounds would be an operator, but not at the
        -- level that they are read at
        have hand : ∀ tokens, Stops BinaryOp.add.tightness (.keyword .AND :: tokens) :=
          fun tokens => (stops_of_operatorAt rfl).mono (by decide)
        refine takes_extend_test (takes_between hend (Nat.le_trans hmin hdemand) negated
          (ihlow.takes hend (by omega) (hand _)) ?_)
        refine ihhigh.takes hend (by omega) (hfurther.mono ?_)
        exact Nat.le_trans (Nat.succ_le_succ hdemand) (by decide)
      · cases negated <;> exact stops_of_operatorAt rfl
      · cases negated <;> exact nofun

/-- An expression is read from exactly the tokens of any rendering of it:
all of them are taken, and the result is the expression. This holds
within upsert assignments and outside of them. -/
theorem readTokens_of_renders (version : DialectVersion) (size : Nat) (upsert : Bool) {e : Expr}
    {lexemes : List Lexer.Lexeme} (h : Renders upsert 0 e (lexemes.map (·.token))) :
    Statement.readTokens
      (fun g => do
        let e ← withReader ({ · with upsert }) (g.expression 0)
        pure (e, (← get).lexemes))
      version size ⟨lexemes, none⟩ = .ok (e, []) := by
  let plain : Surroundings := { version, failure := none, size }
  let grammar := ofDepth (lexemes.length + 1)
  have hreads : Reads { plain with upsert } 0 e (lexemes.map (·.token)) := Renders.reads rfl h
  have hdepth : (lexemes.map (·.token)).length < lexemes.length + 1 := by
    rw [List.length_map]
    exact Nat.lt_succ_self _
  obtain ⟨c, hc, hrest, -⟩ :=
    hreads.takes rfl hdepth (stops_nil 0) { lexemes } (List.append_nil _).symm
  have hexpression : (withReader ({ · with upsert }) (grammar.expression 0)).perform plain
      { lexemes } = .ok (e, c) := hc
  have hlexemes : c.lexemes = [] := List.map_eq_nil_iff.mp hrest
  have hall := perform_bind (f := fun e => do pure (e, (← get).lexemes)) hexpression
  show (Parser.perform _ plain { lexemes } >>= fun p => pure p.1) = _
  rw [hall, ← hlexemes]
  rfl

/-- So `NOT a - b * (c - d) IS NULL` negates the test of a difference,
whose right side is a product. -/
theorem readTokens_of_renders_negated_test :
    Statement.readTokens
      (fun g => do
        let e ← withReader ({ · with upsert := false }) (g.expression 0)
        pure (e, (← get).lexemes))
      ⟨.sqLite, 3⟩ 27
      ⟨[⟨0, .keyword .NOT⟩, ⟨4, .ident "a"⟩, ⟨6, .sign .minus⟩, ⟨8, .ident "b"⟩,
        ⟨10, .sign .asterisk⟩, ⟨12, .sign .openParen⟩, ⟨13, .ident "c"⟩, ⟨15, .sign .minus⟩,
        ⟨17, .ident "d"⟩, ⟨18, .sign .closeParen⟩, ⟨20, .keyword .IS⟩, ⟨23, .keyword .NULL⟩],
        none⟩
      = .ok (.unary .not (.unary .isNull (.binary .subtract (.column none "a")
          (.binary .multiply (.column none "b")
            (.binary .subtract (.column none "c") (.column none "d"))))), []) := by
  have name {demand : Nat} (name : String) :
      Renders false demand (.column none name) [.ident name] := .leaf (.column rfl)
  have right : Renders false 8 _ _ :=
    .parentheses (.binary .subtract (by decide) (name "c") (name "d"))
  have product : Renders false 7 _ _ := .binary .multiply (by decide) (name "b") right
  have difference : Renders false 4 _ _ := .binary .subtract (by decide) (name "a") product
  have test : Renders false 3 _ _ := .isNull false (by decide) difference
  have negation : UnaryOp.not.before? = some (.keyword .NOT, 3) := rfl
  exact readTokens_of_renders _ _ _ (.unary negation (by decide) test)

end DialectDb.Grammar
