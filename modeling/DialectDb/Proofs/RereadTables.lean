/-
A printed table is read as the table. From its tokens a statement is read
that creates it (`Table.parse_shown`), and executing the statement creates
a table with the same columns, but for the letter case of their names.

A table is printed after it has been created, so its columns are what
definitions of columns have made: a column without a default does not take
NULL, and a default has the type of its column.
-/
import DialectDb.Execution
import DialectDb.Proofs.ShownTables
import DialectDb.Proofs.Storage

namespace DialectDb

open DialectDb.Parser DialectDb.Grammar DialectDb.Lexer

-- =============================================================== defaults

/-- A literal with a minus before it, or without. -/
def signedLiteral (negative : Bool) (v : Value) : Expr :=
  if negative then .unary .negate (.literal v) else .literal v

namespace Value

/-- The expression that a default is read as. -/
def shownExpr : Value → Expr
  | .integer i => signedLiteral (i.toInt < 0) (.integer (Int64.ofNat i.toInt.natAbs))
  | .float d => signedLiteral d.negative (.float d.abs)
  | v => .literal v

theorem renders_signed {upsert negative : Bool} {v : Value} {text : String}
    (h : Leaf upsert (.literal v) [.number text]) :
    Renders upsert 0 (signedLiteral negative v) (signed negative text) := by
  cases negative with
  | false => exact .leaf h
  | true =>
      have hop : UnaryOp.negate.before? = some (.sign .minus, 10) := rfl
      exact .unary hop (Nat.zero_le _) (.leaf h)

variable {rules : LexicalRules} {v : Value}

/-- Of an integer that is not the least one the size is an integer. -/
theorem natAbs_le {i : Int64} (h : i ≠ Int64.minValue) :
    (i.toInt.natAbs : Int) ≤ Int64.maxValue.toInt := by
  have hlow := Int64.minValue_le_toInt i
  have hhigh := Int64.toInt_le i
  have hne : i.toInt ≠ Int64.minValue.toInt := fun heq => h (Int64.toInt_inj.mp heq)
  have hleast : Int64.minValue.toInt = -9223372036854775808 := rfl
  have hmost : Int64.maxValue.toInt = 9223372036854775807 := rfl
  omega

/-- The tokens of a default are those of an expression. -/
theorem renders_shown (h : v.IsShown rules) (upsert : Bool) :
    Renders upsert 0 v.shownExpr v.shownTokens := by
  cases v with
  | null => exact .leaf .null
  | boolean b =>
      cases b with
      | true => exact .leaf .true
      | false => exact .leaf .false
  | integer i =>
      refine renders_signed ?_
      have hfits := natAbs_le h
      have hleaf : Leaf upsert _ [.number (toString i.toInt.natAbs)] :=
        .integer (isDigit_toString i.toInt.natAbs) (by rw [digitsValue_toString]; exact hfits)
      rwa [digitsValue_toString] at hleaf
  | float d => exact renders_signed (.float h.abs.text_not_digits h.abs.ofText?_text)
  | string s => exact .leaf (.string s)

theorem evalConstant_signed {v w : Value} {negative : Bool}
    (h : (if negative then v.negate else .ok v) = .ok w) :
    Scope.evalConstant (signedLiteral negative v) = .ok w := by
  cases negative with
  | false => exact h
  | true => exact h

/-- The value of that expression is the default. -/
theorem evalConstant_shown (h : v.IsShown rules) : Scope.evalConstant v.shownExpr = .ok v := by
  cases v with
  | integer i =>
      have hfits := natAbs_le h
      have hsize : (Int64.ofNat i.toInt.natAbs).toInt = i.toInt.natAbs := by
        have hmost : Int64.maxValue.toInt = 9223372036854775807 := rfl
        exact Int64.toInt_ofNat_of_lt (by omega)
      refine evalConstant_signed ?_
      by_cases hnegative : i.toInt < 0
      · rw [if_pos (by simpa using hnegative)]
        show ofInt (-(Int64.ofNat i.toInt.natAbs).toInt) = _
        rw [hsize, show -(i.toInt.natAbs : Int) = i.toInt by omega]
        unfold ofInt
        rw [if_pos ⟨Int64.minValue_le_toInt i, Int64.toInt_le i⟩, Int64.ofInt_toInt]
      · rw [if_neg (by simpa using hnegative), ← Int64.ofInt_eq_ofNat,
          show (i.toInt.natAbs : Int) = i.toInt by omega, Int64.ofInt_toInt]
  | float d =>
      refine evalConstant_signed ?_
      cases hnegative : d.negative with
      | true => exact congrArg (fun d => Except.ok (Value.float d)) (Double.neg_abs hnegative)
      | false =>
          exact congrArg (fun d => Except.ok (Value.float d))
            (Double.abs_of_not_negative hnegative)
  | _ => rfl

end Value

-- ================================================================ columns

/-- The expression that a default is given by, if it is printed. -/
def shownDefault (value? : Option Value) : Option Expr :=
  if value? = some .null then none else value?.map Value.shownExpr

/-- Whether a column is printed as NOT NULL. -/
def Column.shownNullable (c : Column) : Option Bool :=
  if c.primaryKey || c.nullable then none else some false

/-- The definition that a column is read as. -/
def Column.definition (c : Column) : ColumnDefinition where
  name := readName c.name
  type := c.type
  primaryKey := c.primaryKey
  nullable := c.shownNullable
  default := shownDefault c.default
  unique := c.unique

namespace Grammar

variable {around : Surroundings} {g : Grammar} {depth : Nat} {tokens rest : List Token}
  {known definition : ColumnDefinition}

/-- What stands behind a column: a comma, or the parenthesis that closes
the table. -/
def EndsColumn (rest : List Token) : Prop :=
  ∃ mark more, rest = .sign mark :: more ∧ (mark = .comma ∨ mark = .closeParen)

/-- What is left of a column is read: from what is known of it so far, its
definition is made. -/
abbrev Completes (around : Surroundings) (g : Grammar) (known : ColumnDefinition)
    (tokens : List Token) (definition : ColumnDefinition) (rest : List Token) : Prop :=
  Repeats around (columnConstraint? g) known tokens definition rest

theorem completes_end (h : EndsColumn rest) (definition : ColumnDefinition) :
    Completes around g definition rest definition rest := by
  obtain ⟨mark, more, rfl, -⟩ := h
  refine .stop (takes_bind (takes_nextMap_none ?_) takes_pure)
  rintro _ ⟨⟩
  rfl

theorem completes_unique (h : EndsColumn rest) (c : Column) (hknown : known.unique = false) :
    Completes around g known (c.uniqueTokens ++ rest) { known with unique := c.unique } rest := by
  unfold Column.uniqueTokens
  cases c.unique with
  | true =>
      refine .step (takes_bind (takes_nextMap rfl) takes_pure) ?_ (completes_end h _)
      exact Nat.lt_succ_self _
  | false =>
      have hsame : { known with unique := false } = known := by rw [← hknown]
      rw [hsame]
      exact completes_end h known

/-- Where a default ends. -/
theorem stops_unique (h : EndsColumn rest) (c : Column) : Stops 0 (c.uniqueTokens ++ rest) := by
  unfold Column.uniqueTokens
  cases c.unique with
  | true => exact ⟨nofun, nofun, nofun⟩
  | false =>
      obtain ⟨mark, more, rfl, rfl | rfl⟩ := h
      · exact stops_comma 0 more
      · exact stops_closeParen 0 more

theorem length_shownTokens (v : Value) : v.shownTokens.length ≤ 2 := by
  have hsigned (negative : Bool) (text : String) : (signed negative text).length ≤ 2 := by
    cases negative
    · exact Nat.le_succ 1
    · exact Nat.le_refl 2
  cases v with
  | boolean b => cases b <;> exact Nat.le_succ 1
  | integer i => exact hsigned _ _
  | float d => exact hsigned _ _
  | _ => exact Nat.le_succ 1

theorem completes_default {rules : LexicalRules} {value? : Option Value}
    (hend : around.failure = none) (hdepth : 2 < depth) (h : ∀ v ∈ value?, v.IsShown rules)
    (hstops : Stops 0 tokens) (hknown : known.default = none)
    (hrest : Completes around (ofDepth depth) { known with default := shownDefault value? } tokens
      definition rest) :
    Completes around (ofDepth depth) known (Column.defaultTokens value? ++ tokens) definition
      rest := by
  have hsame : { known with default := none } = known := by rw [← hknown]
  have hvalue (v : Value) (hv : v.IsShown rules) :
      Takes around (columnConstraint? (ofDepth depth) known)
        (.keyword .DEFAULT :: (v.shownTokens ++ tokens))
        (some { known with default := some v.shownExpr }) tokens := by
    have hreads : Reads around 0 v.shownExpr v.shownTokens :=
      Renders.reads hend (Value.renders_shown hv _)
    have hexpression := hreads.takes hend (Nat.lt_of_le_of_lt (length_shownTokens v) hdepth) hstops
    exact takes_bind (takes_nextMap rfl) (takes_bind hexpression takes_pure)
  have hshorter (v : Value) :
      tokens.length < (.keyword .DEFAULT :: (v.shownTokens ++ tokens) : List Token).length := by
    rw [List.length_cons, List.length_append]
    omega
  cases value? with
  | none =>
      rw [show shownDefault none = none from rfl, hsame] at hrest
      exact hrest
  | some v =>
      by_cases hnull : v = .null
      · subst hnull
        rw [show shownDefault (some .null) = none from rfl, hsame] at hrest
        exact hrest
      · have hshown : shownDefault (some v) = some v.shownExpr := if_neg (by simpa using hnull)
        have htokens : Column.defaultTokens (some v) = .keyword .DEFAULT :: v.shownTokens := by
          cases v with
          | null => exact absurd rfl hnull
          | _ => rfl
        rw [hshown] at hrest
        rw [htokens]
        exact .step (hvalue v (h v rfl)) (hshorter v) hrest

theorem completes_key (c : Column) (hkey : known.primaryKey = false) (hnull : known.nullable = none)
    (hrest : Completes around g
      { known with primaryKey := c.primaryKey, nullable := c.shownNullable } tokens
      definition rest) :
    Completes around g known (c.keyTokens ++ tokens) definition rest := by
  unfold Column.shownNullable at hrest
  unfold Column.keyTokens
  cases hprimary : c.primaryKey with
  | true =>
      rw [hprimary] at hrest
      have hstep : Takes around (columnConstraint? g known)
          (.keyword .PRIMARY :: .keyword .KEY :: tokens) (some { known with primaryKey := true })
          tokens := takes_bind (takes_nextMap rfl) (takes_bind takes_expect takes_pure)
      have hsame : { known with primaryKey := true, nullable := none } =
          { known with primaryKey := true } := by rw [← hnull]
      refine .step hstep (Nat.lt_add_of_pos_right Nat.two_pos) ?_
      rw [← hsame]
      exact hrest
  | false =>
      rw [hprimary] at hrest
      cases hnullable : c.nullable with
      | true =>
          rw [hnullable] at hrest
          have hsame : { known with primaryKey := false, nullable := none } = known := by
            rw [← hkey, ← hnull]
          rw [← hsame]
          exact hrest
      | false =>
          rw [hnullable] at hrest
          have hset : Takes around (setNullable known false) tokens
              { known with nullable := some false } tokens := by
            unfold setNullable
            rw [hnull]
            exact takes_pure
          have hstep : Takes around (columnConstraint? g known)
              (.keyword .NOT :: .keyword .NULL :: tokens)
              (some { known with nullable := some false }) tokens :=
            takes_bind (takes_nextMap rfl) (takes_bind takes_expect (takes_map hset))
          have hsame : { known with primaryKey := false, nullable := some false } =
              { known with nullable := some false } := by rw [← hkey]
          refine .step hstep (Nat.lt_add_of_pos_right Nat.two_pos) ?_
          rw [← hsame]
          exact hrest

/-- No arguments of a type stand before constraints. -/
theorem constraints_head (c : Column) (h : tokens.head? ≠ some (.sign .openParen)) :
    (c.keyTokens ++ (Column.defaultTokens c.default ++ tokens)).head? ≠
      some (.sign .openParen) := by
  have hdefault : (Column.defaultTokens c.default ++ tokens).head? ≠ some (.sign .openParen) := by
    unfold Column.defaultTokens
    split
    · exact h
    · exact h
    · nofun
  unfold Column.keyTokens
  split
  · nofun
  split
  · exact hdefault
  · nofun

/-- A column is read from its tokens. -/
theorem takes_columnDefinition {rules : LexicalRules} {c : Column} (hend : around.failure = none)
    (hdepth : 2 < depth) (h : c.IsShown rules) (hrest : EndsColumn rest) :
    Takes around (columnDefinition (ofDepth depth)) (c.tokens ++ rest) c.definition rest := by
  have htype : DataType.ofName? (Column.typeName c.type) = some c.type := by
    cases c.type <;> decide +kernel
  have htokens : c.tokens ++ rest = .ident (readName c.name) :: .ident (Column.typeName c.type) ::
      (c.keyTokens ++ (Column.defaultTokens c.default ++ (c.uniqueTokens ++ rest))) := by
    simp only [Column.tokens, List.cons_append, List.append_assoc]
  rw [htokens]
  refine takes_bind (takes_identifier rfl) (takes_bind (takes_identifier rfl) ?_)
  rw [htype]
  have harguments := constraints_head c (stops_unique hrest c).parenthesis
  refine takes_bind (takes_bind (takes_accept_false harguments) takes_pure) (Repeats.takes ?_)
  refine completes_key c rfl rfl ?_
  refine completes_default hend hdepth h.default (stops_unique hrest c) rfl ?_
  exact completes_unique hrest c rfl

-- ================================================================= tables

/-- A column is put behind those before it. -/
theorem appends_column {rules : LexicalRules} {c : Column} (hend : around.failure = none)
    (hdepth : 2 < depth) (h : c.IsShown rules) :
    AppendsBefore around (tableElement (ofDepth depth)) EndsColumn (c.definition, c.tokens) :=
  fun _ _ hrest =>
    takes_bind takes_peek (takes_bind (takes_columnDefinition hend hdepth h hrest) takes_pure)

/-- The statement that a printed table is read as. -/
def shownStatement (t : Table) : Statement :=
  .createTable (readName t.name) (t.columns.map Column.definition)

theorem takes_createTable {rules : LexicalRules} {t : Table} (hend : around.failure = none)
    (hdepth : 2 < depth) (hne : t.columns ≠ []) (h : t.IsShown rules) :
    Takes around (createTable (ofDepth depth)) t.tokens (shownStatement t) [] := by
  have hname {content : List Token} :
      Takes around tableName (.ident (readName t.name) :: inParentheses content) (readName t.name)
        (inParentheses content) := by
    have hnoPeriod : Takes around (accept Sign.period) (inParentheses content) false
        (inParentheses content) := takes_accept_false (by simp [inParentheses])
    refine takes_bind (takes_identifier rfl) (Repeats.takes (.stop ?_))
    exact takes_bind hnoPeriod takes_pure
  have hitems : ∀ i ∈ t.columns.map fun c => (c.definition, c.tokens),
      AppendsBefore around (tableElement (ofDepth depth)) EndsColumn i :=
    List.forall_mem_map.mpr fun c hc => appends_column hend hdepth (h.columns c hc)
  have hcloses : EndsColumn [.sign .closeParen] := ⟨.closeParen, [], rfl, .inr rfl⟩
  have hcolumns := takes_commaFold (fun tokens => ⟨.comma, tokens, rfl, .inl rfl⟩) hitems
    (by simpa using hne) hcloses (by simp)
  rw [List.map_map, List.map_map] at hcolumns
  exact takes_bind takes_expect (takes_bind takes_expect (takes_bind hname
    (takes_bind (takes_parenthesized hcolumns) takes_pure)))

end Grammar

/-- A printed table is parsed as the statement that creates it. -/
theorem Table.parse_shown {version : DialectVersion} {t : Table} (hname : t.name ≠ "")
    (hcolumns : ∀ c ∈ t.columns, c.name ≠ "") (hne : t.columns ≠ [])
    (h : t.IsShown version.dialect.lexical) :
    Statement.parse version t.text = .ok (shownStatement t) := by
  have hdepth : 2 < t.tokens.length + 1 := by
    simp only [Table.tokens, List.length_cons]
    omega
  have hstatement : Takes ⟨version, none, t.text.utf8ByteSize, false⟩
      (statement (ofDepth (t.tokens.length + 1))) t.tokens (shownStatement t) [] :=
    Statement.takes_peekPosition fun _ => takes_bind takes_peek
      (takes_createTable rfl hdepth hne h)
  exact Statement.parse_of_takes (lexes_text hname hcolumns hne h).lex
    (Statement.takes_wholeStatement rfl hstatement)

end DialectDb
