/-
Whatever can be written is read back. What is in a query has fewer
tokens than the query, and a grammar of some depth reads everything that
has no more tokens than that; so the readers of what is inside, which are
one level less deep, still read it.
-/
import DialectDb.Proofs.Precedence
import DialectDb.Proofs.WrittenClauses

namespace DialectDb

-- ============================================================== lengths

theorem length_lt_clauseTokens (word : Keyword) {e : Expr} {e? : Option Expr} (h : e ∈ e?) :
    e.tokens.length < (clauseTokens word (e?.map Expr.tokens)).length := by
  cases h
  exact Nat.lt_succ_self _

theorem length_lt_listTokens {α : Type} (written : α → List Token) (first second : Keyword)
    {a : α} {items : List α} (h : a ∈ items) :
    (written a).length < (listTokens first second (items.map written)).length := by
  have hle := length_le_commaSeparated (List.mem_map_of_mem (f := written) h)
  cases items with
  | nil => cases h
  | cons b items =>
      show _ < (_ :: _ :: commaSeparated ((b :: items).map written)).length
      simp only [List.length_cons]
      omega

theorem length_le_flatten {lists : List (List Token)} {tokens : List Token} (h : tokens ∈ lists) :
    tokens.length ≤ lists.flatten.length :=
  (List.sublist_flatten_of_mem h).length_le

theorem length_lt_selectTokens (distinct : Bool) {item : SelectItem} {columns : List SelectItem}
    (h : item ∈ columns) :
    item.expr.tokens.length
      < (selectTokens distinct (columns.map SelectItem.tokens)).length := by
  have hle := length_le_commaSeparated (List.mem_map_of_mem (f := SelectItem.tokens) h)
  simp only [selectTokens, SelectItem.tokens, List.length_cons, List.length_append] at hle ⊢
  omega

theorem length_lt_fromTokens {source : Option TableRef} {joins : List Join}
    (halone : source = none → joins = []) {join : Join} (hjoin : join ∈ joins) {e : Expr}
    (he : e ∈ join.predicate) :
    e.tokens.length < (fromTokens source (joins.map Join.tokens)).length := by
  have hle := length_le_flatten (List.mem_map_of_mem (f := Join.tokens) hjoin)
  have hlt := length_lt_clauseTokens .ON he
  cases source with
  | none =>
      rw [halone rfl] at hjoin
      cases hjoin
  | some table =>
      show _ < (_ :: (table.tokens ++ _)).length
      simp only [Join.tokens, joinTokens, List.length_cons, List.length_append] at hle ⊢
      omega

theorem length_lt_withTokens (recursive : Bool) {cte : Cte} {ctes : List Cte} (h : cte ∈ ctes) :
    cte.body.tokens.length < (withTokens recursive (ctes.map Cte.tokens)).length := by
  have hle := length_le_commaSeparated (List.mem_map_of_mem (f := Cte.tokens) h)
  cases ctes with
  | nil => cases h
  | cons first ctes =>
      show _ < (_ :: (_ ++ commaSeparated ((first :: ctes).map Cte.tokens))).length
      simp only [Cte.tokens, inParentheses, List.length_cons, List.length_append] at hle ⊢
      omega

/-- What is right in a query has fewer tokens than the query. -/
theorem Select.Parts.within {p : Expr → Prop} {s : Select → Prop} {q : Select} (h : q.Parts p s)
    (halone : q.source = none → q.joins = []) :
    q.Parts (fun e => p e ∧ e.tokens.length < q.tokens.length)
      (fun inner => s inner ∧ inner.tokens.length < q.tokens.length) := by
  have hlength := congrArg List.length q.tokens_eq
  simp only [coreTokens, tailTokens, List.length_append] at hlength
  constructor
  case ctes =>
    intro cte hcte
    have hlt := length_lt_withTokens (q.ctes.any (·.recursive)) hcte
    exact ⟨h.ctes cte hcte, by omega⟩
  case columns =>
    intro item hitem
    have hlt := length_lt_selectTokens q.distinct hitem
    exact ⟨h.columns item hitem, by omega⟩
  case joins =>
    intro join hjoin e he
    have hlt := length_lt_fromTokens halone hjoin he
    exact ⟨h.joins join hjoin e he, by omega⟩
  case predicate =>
    intro e he
    have hlt := length_lt_clauseTokens .WHERE he
    exact ⟨h.predicate e he, by omega⟩
  case groupBy =>
    intro e he
    have hlt := length_lt_listTokens Expr.tokens .GROUP .BY he
    exact ⟨h.groupBy e he, by omega⟩
  case having =>
    intro e he
    have hlt := length_lt_clauseTokens .HAVING he
    exact ⟨h.having e he, by omega⟩
  case unions =>
    intro branch hbranch
    have hle := length_le_flatten (List.mem_map_of_mem (f := UnionBranch.tokens) hbranch)
    simp only [UnionBranch.tokens, unionTokens, List.length_cons, List.length_append] at hle
    exact ⟨h.unions branch hbranch, by omega⟩
  case orderBy =>
    intro key hkey
    have hlt := length_lt_listTokens SortKey.tokens .ORDER .BY hkey
    simp only [SortKey.tokens, List.length_append] at hlt
    exact ⟨h.orderBy key hkey, by omega⟩
  case offset =>
    intro e he
    have hlt := length_lt_clauseTokens .OFFSET he
    exact ⟨h.offset e he, by omega⟩
  case limit =>
    intro e he
    have hlt := length_lt_clauseTokens .LIMIT he
    exact ⟨h.limit e he, by omega⟩

namespace Grammar

open DialectDb.Parser

variable {around : Surroundings}

-- ================================================================ depth

/-- An expression is read back as an operand by every grammar that is
deep enough. -/
def RereadsExpr (around : Surroundings) (e : Expr) : Prop :=
  ∀ depth rest, e.tokens.length ≤ depth → rest.head? ≠ some (.sign .openParen) →
    rest.head? ≠ some (.sign .period) →
    Takes around (operand (ofDepth depth)) (e.tokens ++ rest) e rest

/-- A query is read back by every grammar that is deep enough, and so is
its core. -/
def RereadsQuery (around : Surroundings) (q : Select) : Prop :=
  ∀ depth, q.tokens.length ≤ depth →
    TakesBefore around (selectWith (ofDepth depth)) (Behind 9) (q, q.tokens) ∧
      TakesCore around (ofDepth depth) q

/-- One level further inside there is an expression of fewer tokens. -/
theorem RereadsExpr.takes (hend : around.failure = none) {e : Expr} (h : RereadsExpr around e)
    {depth : Nat} (hdepth : e.tokens.length < depth) : TakesExpr around (ofDepth depth) e := by
  intro min rest hrest
  obtain ⟨depth, rfl⟩ := Nat.exists_eq_succ_of_ne_zero (Nat.ne_of_gt (Nat.zero_lt_of_lt hdepth))
  have hoperand := h depth rest (Nat.le_of_lt_succ hdepth) hrest.parenthesis hrest.period
  obtain ⟨token, tail, htokens, hopens⟩ := e.tokens_opensOperand
  show Takes around (expressionWith (ofDepth depth) min) (e.tokens ++ rest) e rest
  rw [htokens] at hoperand ⊢
  exact takes_expressionWith_operand (ofToken_opensOperand hopens) hoperand (.stop hend hrest)

theorem RereadsQuery.takes {q : Select} (h : RereadsQuery around q) {depth : Nat}
    (hdepth : q.tokens.length < depth) :
    TakesQuery around (ofDepth depth) q ∧ TakesCore around (ofDepth depth) q := by
  refine ⟨?_, (h depth (Nat.le_of_lt hdepth)).2⟩
  obtain ⟨depth, rfl⟩ := Nat.exists_eq_succ_of_ne_zero (Nat.ne_of_gt (Nat.zero_lt_of_lt hdepth))
  exact (h depth (Nat.le_of_lt_succ hdepth)).1

-- ========================================================== expressions

/-- An operand and one operator behind it, between parentheses. -/
theorem rereads_operator (hend : around.failure = none) {e first : Expr} {token : Token}
    {tail : List Token} (htokens : e.tokens = inParentheses (first.tokens ++ token :: tail))
    (hfirst : RereadsExpr around first) (hparenthesis : token ≠ .sign .openParen)
    (hperiod : token ≠ .sign .period)
    (hoperator : ∀ depth rest, tail.length < depth →
      Takes around (extend? (ofDepth depth) 0 first) (token :: (tail ++ .sign .closeParen :: rest))
        (some e) (.sign .closeParen :: rest)) : RereadsExpr around e := by
  intro depth rest hdepth _ _
  rw [htokens] at hdepth ⊢
  simp only [inParentheses, List.length_cons, List.length_append] at hdepth
  obtain ⟨depth, rfl⟩ := Nat.exists_eq_succ_of_ne_zero (Nat.ne_of_gt (Nat.zero_lt_of_lt hdepth))
  have hoperand := hfirst depth (token :: (tail ++ .sign .closeParen :: rest)) (by omega)
    (fun heq => hparenthesis (Option.some.inj heq)) (fun heq => hperiod (Option.some.inj heq))
  unfold inParentheses
  simp only [List.cons_append, List.append_assoc, List.nil_append]
  refine takes_operand_parentheses ?_
  obtain ⟨opening, others, hopening, hopens⟩ := first.tokens_opensOperand
  rw [hopening] at hoperand ⊢
  refine takes_expressionWith_operand (ofToken_opensOperand hopens) hoperand ?_
  refine .step (hoperator depth rest (by omega)) ?_ (.stop hend (stops_closeParen 0 rest))
  simp only [List.length_cons, List.length_append]
  omega

/-- An operator and its operand behind it, between parentheses. -/
theorem rereads_before (hend : around.failure = none) {op : UnaryOp} {token : Token}
    {tightness : Nat} (hop : op.before? = some (token, tightness)) {e : Expr}
    (h : RereadsExpr around e) : RereadsExpr around (.unary op e) := by
  intro depth rest hdepth _ _
  have htokens : (Expr.unary op e).tokens = inParentheses (token :: e.tokens) := by
    show inParentheses (op.tokens e.tokens) = _
    unfold UnaryOp.tokens
    rw [hop]
  rw [htokens] at hdepth ⊢
  simp only [inParentheses, List.length_cons, List.length_append] at hdepth
  obtain ⟨depth, rfl⟩ := Nat.exists_eq_succ_of_ne_zero (Nat.ne_of_gt (Nat.zero_lt_of_lt hdepth))
  unfold inParentheses
  simp only [List.cons_append, List.append_assoc, List.nil_append]
  refine takes_operand_parentheses ?_
  have hlength : e.tokens.length < depth := by omega
  have hoperand := h.takes hend hlength tightness _ (stops_closeParen tightness rest)
  exact takes_expressionWith_unary hop (Nat.zero_le _) hoperand
    (.stop hend (stops_closeParen 0 rest))

/-- A leaf. -/
theorem rereads_leaf {e : Expr} (h : Leaf around.upsert e e.tokens) : RereadsExpr around e :=
  fun _ _ _ hparenthesis hperiod => takes_operand_leaf h hparenthesis hperiod

theorem rereads_literal {v : Value} (h : v.IsWritable) : RereadsExpr around (.literal v) := by
  cases v with
  | null => exact rereads_leaf .null
  | boolean b => cases b with
    | true => exact rereads_leaf .true
    | false => exact rereads_leaf .false
  | integer i =>
      intro depth rest _ _ _
      have hread := numberLiteral_toString h
      show Takes around _ (.number (toString i.toInt.toNat) :: rest) _ rest
      refine takes_bind takes_next ?_
      show Takes around (numberLiteral (toString i.toInt.toNat)) rest _ rest
      rw [hread]
      exact takes_pure
  | float d => exact rereads_leaf (.float d.exactText_not_digits (Double.ofText?_exactText h))
  | string text => exact rereads_leaf (.string text)

/-- The items of a list are read one level further inside. -/
theorem takesItems_of_rereads (hend : around.failure = none) {items : List Expr}
    (h : ∀ e ∈ items, RereadsExpr around e) {depth : Nat}
    (hdepth : (commaSeparated (items.map Expr.tokens)).length < depth) :
    ∀ e ∈ items, TakesItem around (ofDepth depth) (e, e.tokens) := by
  intro e he
  have hle := length_le_commaSeparated (List.mem_map_of_mem (f := Expr.tokens) he)
  exact (h e he).takes hend (Nat.lt_of_le_of_lt hle hdepth) 0

/-- A call is read with its arguments. -/
theorem rereads_call (hend : around.failure = none) {f : String} {arguments : List Expr}
    (hstar : .all ∈ arguments → f = "count") (h : ∀ e ∈ arguments, RereadsExpr around e) :
    RereadsExpr around (.call f arguments) := by
  intro depth rest hdepth _ _
  have htokens : (Expr.call f arguments).tokens =
      .ident f :: inParentheses (commaSeparated (arguments.map Expr.tokens)) := by
    rw [← Expr.tokensOfList_eq]
    rfl
  rw [htokens] at hdepth ⊢
  simp only [inParentheses, List.length_cons, List.length_append] at hdepth
  have hlength : (commaSeparated (arguments.map Expr.tokens)).length < depth := by omega
  have hitems := takesItems_of_rereads hend h hlength
  have hread : Takes around (Grammar.arguments (ofDepth depth))
      (commaSeparated (arguments.map Expr.tokens) ++ .sign .closeParen :: rest) arguments rest := by
    have hpairs : Takes around _ (commaSeparated _ ++ .sign .closeParen :: rest) _ rest :=
      takes_arguments (List.forall_mem_map.mpr hitems)
        (List.forall_mem_map.mpr fun e _ => e.opensExpression)
    simpa only [List.map_map, Function.comp_def, List.map_id'] using hpairs
  unfold inParentheses
  simp only [List.cons_append, List.append_assoc, List.nil_append]
  exact takes_operand_call hread hstar

/-- A list of values behind IN is read, if there is one in it. -/
theorem takes_inItems (hend : around.failure = none) {items : List Expr} (hne : items ≠ [])
    (h : ∀ e ∈ items, RereadsExpr around e) {depth : Nat}
    (hdepth : (commaSeparated (items.map Expr.tokens)).length < depth) (rest : List Token) :
    Takes around (postfixOp? (ofDepth depth) 0)
      (.keyword .IN :: .sign .openParen ::
        (commaSeparated (items.map Expr.tokens) ++ .sign .closeParen :: rest))
      (some fun e => .inList e items) rest := by
  have hitems := takesItems_of_rereads hend h hdepth
  have hopens : OpensExpression (commaSeparated (items.map Expr.tokens)) :=
    opensExpression_commaSeparated (by simpa using hne)
      (List.forall_mem_map.mpr fun e _ => e.opensExpression)
  exact takes_inList (Nat.zero_le _) false (hopens.append _)
    (takes_commaList_map (stops_comma 0) hitems hne (stops_closeParen 0 rest) nofun)

theorem rereads_exists {q : Select} (h : RereadsQuery around q) :
    RereadsExpr around (.exists q) := by
  intro depth rest hdepth _ _
  have hlength : q.tokens.length < depth := by
    simp only [Expr.tokens, inParentheses, List.length_cons, List.length_append] at hdepth
    omega
  have hquery := (h.takes hlength).1 _ (.closeParen rest)
  show Takes around _ (.keyword .EXISTS :: inParentheses q.tokens ++ rest) _ rest
  unfold inParentheses
  simp only [List.cons_append, List.append_assoc, List.nil_append]
  exact takes_bind takes_next (takes_map (takes_parenthesized hquery))

theorem takes_inQuery {g : Grammar} {q : Select} {rest : List Token}
    (h : Takes around g.select (q.tokens ++ .sign .closeParen :: rest) q
      (.sign .closeParen :: rest)) :
    Takes around (postfixOp? g 0)
      (.keyword .IN :: .sign .openParen :: (q.tokens ++ .sign .closeParen :: rest))
      (some fun e => .inQuery e q) rest := by
  have hat : Takes around atQuery (q.tokens ++ .sign .closeParen :: rest) true
      (q.tokens ++ .sign .closeParen :: rest) := by
    obtain ⟨token, tail, htokens, hopens⟩ := q.tokens_opens
    rw [htokens]
    refine takes_bind takes_peek ?_
    have hyes : (decide (some token = some (.keyword .SELECT))
        || decide (some token = some (.keyword .WITH))) = true := by
      simpa using hopens
    rw [hyes]
    exact takes_pure
  unfold postfixOp?
  rw [if_neg (postfixPrecedence_not_lt (Nat.zero_le _))]
  refine takes_bind (takes_negatable (by decide) false _) (takes_map (takes_parenthesized ?_))
  exact takes_bind hat (takes_bind h takes_pure)

/-- Whatever can be written as an expression is read back, if what is in
it is. -/
theorem rereads_expr (hadmits : Admits around) (e : Expr) (he : e.IsWritable)
    (hoperands : ∀ o ∈ e.operands, RereadsExpr around o)
    (hquery : ∀ q ∈ e.query?, RereadsQuery around q) : RereadsExpr around e := by
  have hend := hadmits.failure
  cases e with
  | all => exact fun _ _ _ _ _ => takes_bind takes_next takes_pure
  | column table name =>
      cases table with
      | none => exact rereads_leaf (.column rfl)
      | some table => exact rereads_leaf (.qualified rfl (by rw [hadmits.upsert]; exact nofun))
  | literal v => exact rereads_literal he
  | parameter placeholder =>
      cases placeholder with
      | named name => exact rereads_leaf (.parameter name)
      | positional ordinal => cases he
  | excluded column => cases he
  | call f arguments => exact rereads_call hend he.2 hoperands
  | unary op e =>
      have h := hoperands e List.mem_cons_self
      cases op with
      | isNull =>
          refine rereads_operator hend rfl h nofun nofun fun depth rest _ => ?_
          exact takes_extend_test (takes_isNull hend (Nat.zero_le _) false _)
      | not => exact rereads_before hend rfl h
      | identity => exact rereads_before hend rfl h
      | negate => exact rereads_before hend rfl h
  | binary op l r =>
      have hl := hoperands l List.mem_cons_self
      have hr := hoperands r (List.mem_cons_of_mem _ List.mem_cons_self)
      have hother : op.token ≠ .sign .openParen ∧ op.token ≠ .sign .period := by
        cases op <;> exact ⟨nofun, nofun⟩
      refine rereads_operator hend rfl hl hother.1 hother.2 fun depth rest hdepth => ?_
      exact takes_extend_binary hend op (Nat.zero_le _)
        (hr.takes hend hdepth _ _ (stops_closeParen _ rest))
  | inList e items =>
      obtain ⟨h, hitems⟩ := List.forall_mem_cons.mp hoperands
      refine rereads_operator hend rfl h nofun nofun fun depth rest hdepth => ?_
      simp only [inParentheses, Expr.tokensOfList_eq, List.length_cons, List.length_append,
        List.cons_append, List.append_assoc, List.nil_append] at hdepth ⊢
      exact takes_extend_test (takes_inItems hend he hitems (by omega) _)
  | «exists» q => exact rereads_exists (hquery q rfl)
  | inQuery e q =>
      have h := hoperands e List.mem_cons_self
      refine rereads_operator hend rfl h nofun nofun fun depth rest hdepth => ?_
      simp only [inParentheses, List.length_cons, List.length_append, List.cons_append,
        List.append_assoc, List.nil_append] at hdepth ⊢
      have hlength : q.tokens.length < depth := by omega
      exact takes_extend_test (takes_inQuery (((hquery q rfl).takes hlength).1 _ (.closeParen _)))

-- ============================================================== queries

/-- So is whatever can be written as a query. -/
theorem rereads_select (hadmits : Admits around) (q : Select) (hq : q.IsWritable)
    (h : q.Parts (RereadsExpr around) (RereadsQuery around)) : RereadsQuery around q := by
  intro depth hdepth
  have hend := hadmits.failure
  have hparts : q.Parts (TakesExpr around (ofDepth depth)) fun inner =>
      TakesQuery around (ofDepth depth) inner ∧ TakesCore around (ofDepth depth) inner :=
    (h.within hq.alone).mono (fun e he => he.1.takes hend (Nat.lt_of_lt_of_le he.2 hdepth))
      (fun inner hinner => hinner.1.takes (Nat.lt_of_lt_of_le hinner.2 hdepth))
  exact ⟨takes_select hadmits hq hparts, takes_core hend hq hparts⟩

/-- A query that can be written is read back. -/
theorem rereads_writable (hadmits : Admits around) {q : Select} (h : q.Writable) :
    RereadsQuery around q :=
  h.induction (rereads_expr hadmits) (rereads_select hadmits)

end Grammar

end DialectDb
