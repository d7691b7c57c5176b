/-
Queries and the failures that are only guarded against. Whatever the
rows, the layouts and the tables are, an expression without placeholders
is never found to have one: not where it is resolved, not where it is one
of the groups or the aggregates, and not once its subqueries have been
replaced by their results, which are literals. So nothing is asked of the
store here. For whole queries it is one induction over queries and
expressions.
-/
import DialectDb.Proofs.Closed
import DialectDb.Proofs.ScopedRows
import DialectDb.Proofs.Scoping

namespace DialectDb

/-- A failure before any row is written: not one that is only guarded
against, nor for a row that collides with another. -/
def Error.OfPreparation : Error → Prop
  | .constraint (.duplicateKey _ _) => False
  | e => e.NoGuard

theorem Error.OfPreparation.noGuard {e : Error} (h : e.OfPreparation) : e.NoGuard := by
  unfold OfPreparation at h
  split at h
  · exact h.elim
  · exact h

theorem Error.OfRow.ofPreparation {e : Error} (h : e.OfRow) : e.OfPreparation := by
  unfold OfPreparation
  split
  · exact h
  · exact h.ofValues.noGuard

/-- A computation that fails as what comes before writing does. -/
abbrev Prepares {α : Type} (r : Result α) : Prop :=
  Yields Error.OfPreparation (fun _ => True) r

theorem OnRow.prepares {α : Type} {r : Result α} (h : OnRow r) : Prepares r :=
  h.weaken fun _ he => he.ofPreparation

/-- A failure for a name, or for a place that a row does not have. -/
def Error.OfLookup : Error → Prop
  | .schema _ | .invalid (.columnOutOfBounds _) => True
  | _ => False

theorem Error.OfLookup.ofPreparation {e : Error} (h : e.OfLookup) : e.OfPreparation := by
  unfold OfLookup at h
  split at h <;> trivial

/-- A computation that only looks something up. -/
abbrev LooksUp {α : Type} (r : Result α) : Prop :=
  Yields Error.OfLookup (fun _ => True) r

theorem LooksUp.prepares {α : Type} {r : Result α} (h : LooksUp r) : Prepares r :=
  h.weaken fun _ he => he.ofPreparation

/-- A computation that does not fail for what is only guarded against. -/
abbrev GuardSafe {α : Type} (r : Result α) : Prop :=
  Yields Error.NoGuard (fun _ => True) r

theorem OnValues.guardSafe {α : Type} {r : Result α} (h : OnValues r) : GuardSafe r :=
  h.weaken fun _ he => he.noGuard

theorem Prepares.guardSafe {α : Type} {r : Result α} (h : Prepares r) : GuardSafe r :=
  h.weaken fun _ he => he.noGuard

/-- Rows among which there is no such failure. -/
abbrev Rows.GuardSafe (rows : Rows) : Prop :=
  rows.FailOnly Error.NoGuard

-- ============================================================= formulas

namespace Formula

variable {row : Row}

theorem looksUp_column (row : Row) (index : Nat) : LooksUp ((column index).eval row) := by
  unfold eval
  split
  · exact .ok _
  · exact .fail trivial

mutual

/-- Nothing is left of a placeholder in a formula. -/
theorem prepares_eval : ∀ e : Formula, Prepares (e.eval row)
  | .const _ => .ok _
  | .column index => (looksUp_column row index).prepares
  | .unary op e => .bind (prepares_eval e) fun _ _ _ => (op.onRow_apply _).prepares
  | .binary op l r =>
    .bind (prepares_eval l) fun _ _ _ =>
      .bind (prepares_eval r) fun _ _ _ => (op.onRow_apply _ _).prepares
  | .inList e items =>
    .bind (prepares_eval e) fun _ _ _ =>
      .ite (fun _ => .ok _) fun _ => prepares_evalMembership _ _ items
  | .likePattern e _ =>
    .bind (prepares_eval e) fun _ _ _ => (Value.onRow_likePattern _ _).prepares
  | .call function arguments =>
    .bind (prepares_evalList arguments) fun _ _ _ =>
      (function.onRow_apply _).prepares
termination_by structural e => e

theorem prepares_evalList : ∀ es : List Formula, Prepares (evalList row es)
  | [] => .ok _
  | e :: es =>
    .bind (prepares_eval e) fun _ _ _ => .bind (prepares_evalList es) fun _ _ _ => .ok _
termination_by structural es => es

theorem prepares_evalMembership (value otherwise : Value) :
    ∀ items : List Formula, Prepares (evalMembership row value otherwise items)
  | [] => .ok _
  | e :: es => by
    refine .bind (prepares_eval e) fun item _ _ => ?_
    refine .bind (Value.onRow_compare value item).prepares fun ordering _ _ => ?_
    split
    · exact .ok _
    · exact prepares_evalMembership value otherwise es
    · exact prepares_evalMembership value .null es
termination_by structural items => items

end

theorem guardSafe_eval (e : Formula) : GuardSafe (e.eval row) :=
  (prepares_eval e).guardSafe

theorem guardSafe_evalList (es : List Formula) : GuardSafe (evalList row es) :=
  (prepares_evalList es).guardSafe

theorem guardSafe_holds (condition : Option Formula) : GuardSafe (holds condition row) := by
  cases condition with
  | none => exact .ok _
  | some e =>
      refine .bind (guardSafe_eval e) fun value _ _ => ?_
      split <;> first | exact .ok _ | exact .fail trivial

end Formula

-- =============================================================== scopes

theorem Layout.looksUp_find? (layout : Layout) (table : Option String) (name : String) :
    LooksUp (layout.find? table name) := by
  unfold find?
  split <;> first | exact .ok _ | exact .fail trivial

theorem Frame.looksUp_lookup (table : Option String) (name : String) (frames : List Frame) :
    LooksUp (lookup table name frames) := by
  induction frames with
  | nil => exact .fail trivial
  | cons frame rest ih =>
      unfold lookup
      split
      · exact Formula.looksUp_column _ _
      · refine .bind (frame.layout.looksUp_find? table name) fun place _ _ => ?_
        cases place with
        | some index => exact Formula.looksUp_column _ _
        | none => exact ih

namespace Scope

variable {s : Scope}

theorem looksUp_resolveColumn (s : Scope) (table : Option String) (name : String) :
    LooksUp (s.resolveColumn table name) := by
  refine .bind (s.layout.looksUp_find? table name) fun place _ _ => ?_
  cases place with
  | some index => exact .ok _
  | none => exact .map (Frame.looksUp_lookup table name s.outer) fun _ _ => trivial

theorem looksUp_lookup (s : Scope) (table : Option String) (name : String) :
    LooksUp (s.lookup table name) := by
  refine .bind (s.layout.looksUp_find? table name) fun place _ _ => ?_
  cases place with
  | some index => exact .ok _
  | none => exact .fail trivial

theorem prepares_binaryFormula (op : BinaryOp) (l r : Formula) :
    Prepares (binaryFormula op l r) := by
  refine .ite (fun _ => ?_) fun _ => .ok _
  unfold Formula.like
  split
  · exact .bind (Value.onRow_ofText _).prepares fun _ _ _ => .ok _
  · exact .ok _

mutual

/-- An expression is resolved, or fails for a placeholder if it has one,
or else as what comes before writing does. -/
theorem resolve_allowed {allowed : Error → Prop}
    (hallowed : ∀ e : Error, e.OfPreparation → allowed e) :
    ∀ e : Expr, (¬e.Closed → ∀ p, allowed (.binding (.notBound p))) →
      Yields allowed (fun _ => True) (s.resolve e)
  | e, h => by
    cases hslot : s.layout.slot? e with
    | some index =>
        rw [resolve_of_slot hslot]
        exact .ok _
    | none =>
        cases e with
        | parameter placeholder =>
            simp only [resolve, hslot]
            exact .fail (h (Expr.not_closed_parameter placeholder) placeholder)
        | column table name =>
            simp only [resolve, hslot]
            exact (s.looksUp_resolveColumn table name).prepares.weaken hallowed
        | literal value =>
            simp only [resolve, hslot]
            exact .ok _
        | excluded column =>
            simp only [resolve, hslot]
            exact .map ((s.looksUp_lookup _ _).prepares.weaken hallowed) fun _ _ => trivial
        | call name arguments =>
            simp only [resolve, hslot]
            refine .ite (fun _ => .fail (hallowed _ trivial)) fun _ => ?_
            have hfunction := (Function.onRow_lookup name arguments.length).prepares
            refine .bind (hfunction.weaken hallowed) fun function _ _ => ?_
            have hclosed := (Expr.closed_call name arguments).mp
            refine .bind (resolveList_allowed hallowed arguments fun ho => h fun hc => ?_)
              fun _ _ _ => .ok _
            exact ho (hclosed hc)
        | unary op operand =>
            simp only [resolve, hslot]
            exact .bind (resolve_allowed hallowed operand h) fun _ _ _ => .ok _
        | binary op left right =>
            have hclosed := (Expr.closed_binary op left right).mp
            simp only [resolve, hslot]
            refine .bind (resolve_allowed hallowed left fun ho => h fun hc => ho (hclosed hc).1)
              fun _ _ _ => ?_
            refine .bind (resolve_allowed hallowed right fun ho => h fun hc => ho (hclosed hc).2)
              fun _ _ _ => ?_
            exact (prepares_binaryFormula op _ _).weaken hallowed
        | inList operand items =>
            have hclosed := (Expr.closed_inList operand items).mp
            simp only [resolve, hslot]
            refine .bind (resolve_allowed hallowed operand fun ho => h fun hc => ho (hclosed hc).1)
              fun _ _ _ => ?_
            exact .bind
              (resolveList_allowed hallowed items fun ho => h fun hc => ho (hclosed hc).2)
              fun _ _ _ => .ok _
        | _ =>
            simp only [resolve, hslot]
            exact .fail (hallowed _ trivial)
termination_by structural e => e

theorem resolveList_allowed {allowed : Error → Prop}
    (hallowed : ∀ e : Error, e.OfPreparation → allowed e) :
    ∀ es : List Expr, ((¬∀ e ∈ es, e.Closed) → ∀ p, allowed (.binding (.notBound p))) →
      Yields allowed (fun _ => True) (s.resolveList es)
  | [], _ => .ok _
  | e :: es, h => by
    have hclosed := (@List.forall_mem_cons _ Expr.Closed e es).mp
    refine .bind (resolve_allowed hallowed e fun ho => h fun hc => ho (hclosed hc).1)
      fun _ _ _ => ?_
    exact .bind (resolveList_allowed hallowed es fun ho => h fun hc => ho (hclosed hc).2)
      fun _ _ _ => .ok _
termination_by structural es => es

end

theorem evalConstant_allowed {allowed : Error → Prop}
    (hallowed : ∀ e : Error, e.OfPreparation → allowed e) {e : Expr}
    (h : ¬e.Closed → ∀ p, allowed (.binding (.notBound p))) :
    Yields allowed (fun _ => True) (evalConstant e) :=
  .bind (resolve_allowed hallowed e h) fun f _ _ => (Formula.prepares_eval f).weaken hallowed

/-- An expression without placeholders is resolved, or fails for
something else. -/
theorem guardSafe_resolve (e : Expr) (h : e.Closed) : GuardSafe (s.resolve e) :=
  resolve_allowed (fun _ he => he.noGuard) e (absurd h)

theorem guardSafe_resolveList (es : List Expr) (h : ∀ e ∈ es, e.Closed) :
    GuardSafe (s.resolveList es) :=
  resolveList_allowed (fun _ he => he.noGuard) es (absurd h)

theorem guardSafe_evalConstant {e : Expr} (h : e.Closed) : GuardSafe (evalConstant e) :=
  evalConstant_allowed (fun _ he => he.noGuard) (absurd h)

theorem prepares_merge (s other : Scope) : Prepares (s.merge other) := by
  unfold merge
  split
  · exact .fail trivial
  · exact .ok _

end Scope

theorem Context.guardSafe_relation (context : Context) (name : String) :
    GuardSafe (context.relation name) := by
  unfold relation
  split
  · exact .ok _
  · split
    · exact .ok _
    · exact .ite (fun _ => .ok _) fun _ => .fail trivial

-- ======================================================= FROM and JOIN

namespace Source

/-- A source without such a failure in the place of a row. -/
abbrev GuardSafe (source : Source) : Prop :=
  source.rows.GuardSafe

theorem first_guarded (context : Context) (table : Option TableRef) :
    Yields Error.NoGuard GuardSafe (first context table) := by
  cases table with
  | none => exact .pure (Rows.failOnly_ofList _)
  | some table =>
      exact .bind (context.guardSafe_relation table.name) fun _ _ _ =>
        .pure (Rows.failOnly_ofList _)

theorem joinRows_guarded {source : Source} (h : source.GuardSafe) (kind : JoinKind)
    (relation : Relation) (predicate : Option Formula) :
    Yields Error.NoGuard Rows.GuardSafe (source.joinRows kind relation predicate) := by
  have hpasses (j : Joining) (row : Row) : DialectDb.GuardSafe (j.passes row) := by
    unfold Joining.passes
    split
    · exact .ok true
    · next e _ =>
        refine .bind (Formula.guardSafe_eval e) fun value _ _ => ?_
        split <;> first | exact .ok _ | exact .fail trivial
  cases kind with
  | right =>
      rw [joinRows_right]
      refine .bind h.collect fun read _ _ => ?_
      exact Joining.rows_yields (Rows.failOnly_ofList _) fun _ _ _ _ => hpasses _ _
  | _ => exact Joining.rows_yields h fun _ _ _ _ => hpasses _ _

theorem join_guarded {context : Context} {source : Source} (h : source.GuardSafe) {j : Join}
    (hclosed : ∀ e ∈ j.predicate, e.Closed) :
    Yields Error.NoGuard GuardSafe (source.join context j) := by
  refine .bind (context.guardSafe_relation _) fun relation _ _ => ?_
  refine .bind (source.scope.prepares_merge _).guardSafe fun scope _ _ => ?_
  refine .bind (.optionMapM (Q := fun _ => True) fun e he => ?_) fun predicate _ _ => ?_
  · exact Scope.guardSafe_resolve e (hclosed e he)
  · exact .bind (joinRows_guarded h j.kind relation predicate) fun _ _ hrows => .pure hrows

theorem ofClause_guarded (context : Context) (table : Option TableRef) {joins : List Join}
    (hclosed : ∀ j ∈ joins, ∀ e ∈ j.predicate, e.Closed) :
    Yields Error.NoGuard GuardSafe (ofClause context table joins) :=
  .bind (first_guarded context table) fun _ _ hfirst =>
    .foldlM (fun j hj _ hsource => join_guarded hsource (hclosed j hj)) hfirst

end Source

-- =============================================================== WHERE

/-- A condition without placeholders, whose subqueries become literals. -/
structure Condition.Guarded (c : Condition) : Prop where
  expr : c.expr.Closed
  expand : ∀ frames, Yields Error.NoGuard Expr.Closed (c.expand frames)

namespace Condition

variable {c : Condition}

theorem guardSafe_mask (h : c.Guarded) (s : Scope) (rows : List Row) :
    GuardSafe (c.mask s rows) := by
  have hmarks {f : Row → Result Bool} (hf : ∀ row, GuardSafe (f row)) : GuardSafe (rows.mapM f) :=
    (Yields.mapM fun row _ => hf row).forget
  refine .ite (fun _ => ?_) fun _ => ?_
  · refine .bind (Scope.guardSafe_resolve _ h.expr.withoutSubqueries) fun _ _ _ => ?_
    refine hmarks fun row => .bind (h.expand _) fun e _ he => ?_
    exact .bind (Scope.guardSafe_resolve e he) fun f _ _ => Formula.guardSafe_holds f
  · refine .bind (Scope.guardSafe_resolve _ h.expr) fun f _ _ => ?_
    exact hmarks fun row => Formula.guardSafe_holds f

theorem select_guarded (h : c.Guarded) {source : Source} (hsource : source.GuardSafe) :
    Yields Error.NoGuard Rows.GuardSafe (c.select source) := by
  refine .ite (fun _ => ?_) fun _ => ?_
  · refine .bind hsource.collect fun read _ _ => ?_
    exact .bind (guardSafe_mask h _ _) fun mask _ _ => .pure (Rows.failOnly_ofList _)
  · refine .bind (Scope.guardSafe_resolve _ h.expr) fun f _ _ => .pure (hsource.filter ?_)
    exact fun row _ => Formula.guardSafe_holds f

end Condition

theorem Select.filtered_guarded {condition : Option Condition} (h : ∀ c ∈ condition, c.Guarded)
    {source : Source} (hsource : source.GuardSafe) :
    Yields Error.NoGuard Source.GuardSafe (filtered condition source) := by
  cases condition with
  | none => exact .pure hsource
  | some c => exact .bind (Condition.select_guarded (h c rfl) hsource) fun _ _ hrows => .pure hrows

-- ============================================================ grouping

section Grouping

variable {s : Scope}

theorem guardSafe_addKeys {keys : List Expr} (h : ∀ e ∈ keys, e.Closed) (grouped : Scope) :
    GuardSafe (addKeys s keys grouped) := by
  induction keys generalizing grouped with
  | nil => exact .ok _
  | cons e rest ih =>
      obtain ⟨hfirst, hrest⟩ := List.forall_mem_cons.mp h
      refine .bind (Scope.guardSafe_resolve e hfirst) fun f _ _ => ?_
      exact .bind (ih hrest _) fun _ _ _ => .ok _

theorem guardSafe_aggregateArgument (name : String) {arguments : List Expr}
    (h : ∀ e ∈ arguments, e.Closed) : GuardSafe (aggregateArgument s name arguments) := by
  unfold aggregateArgument
  split
  · exact .ok _
  · exact Scope.guardSafe_resolve _ (h _ List.mem_cons_self)
  · exact .fail trivial

theorem guardSafe_addCalls {es : List Expr} (h : ∀ e ∈ es, e.Closed) (grouped : Scope) :
    GuardSafe (addCalls s es grouped) := by
  induction es generalizing grouped with
  | nil => exact .ok _
  | cons e rest ih =>
      obtain ⟨hfirst, hrest⟩ := List.forall_mem_cons.mp h
      cases e with
      | call name arguments =>
          simp only [addCalls]
          split
          · exact ih hrest grouped
          · have harguments := (Expr.closed_call name arguments).mp hfirst
            refine .bind (guardSafe_aggregateArgument name harguments) fun argument _ _ => ?_
            exact .bind (ih hrest _) fun _ _ _ => .ok _
      | _ => exact ih hrest grouped

theorem closed_aggregateCalls {es : List Expr} (h : ∀ e ∈ es, e.Closed) :
    ∀ call ∈ aggregateCalls es, call.Closed := by
  intro call hcall
  have hnode := List.mem_of_mem_filter (List.mem_eraseDups.mp hcall)
  obtain ⟨e, he, hnode⟩ := List.mem_flatMap.mp hnode
  exact (h e he).node hnode

theorem Source.grouped_guarded {source : Source} (h : source.GuardSafe) {keys es : List Expr}
    (hkeys : ∀ e ∈ keys, e.Closed) (hes : ∀ e ∈ es, e.Closed) :
    Yields Error.NoGuard GuardSafe (source.grouped keys es) := by
  have hscope : DialectDb.GuardSafe (source.scope.grouping keys es) := by
    refine .bind (guardSafe_addKeys hkeys _) fun p _ _ => ?_
    exact .bind (guardSafe_addCalls (closed_aggregateCalls hes) _) fun _ _ _ => .ok _
  refine .bind hscope fun p _ _ => ?_
  have hrows : Yields Error.NoGuard Rows.GuardSafe (p.2.rows source.rows) :=
    Grouping.rows_yields (fun _ he => he.noGuard) h (fun _ _ => Formula.guardSafe_evalList _)
      fun _ _ _ _ => Formula.guardSafe_eval _
  exact .bind hrows fun _ _ hrows => .pure hrows

end Grouping

-- ============================================== select list and ORDER BY

theorem guardSafe_outputColumns {item : SelectItem} (h : item.expr.Closed) (s : Scope)
    (grouping : Bool) : GuardSafe (outputColumns s grouping item) := by
  refine .ite (fun _ => .ite (fun _ => .fail trivial) fun _ => .ok _) fun _ => ?_
  exact .bind (Scope.guardSafe_resolve _ h) fun _ _ _ => .ok _

theorem guardSafe_ordinal (position : Int64) (width : Nat) : GuardSafe (ordinal position width) :=
  .ite (fun _ => .ok _) fun _ => .fail trivial

theorem guardSafe_orderPlace {e : Expr} (h : e.Closed) (s : Scope)
    (aliases : List (Option String)) (hidden : List Formula) :
    GuardSafe (orderPlace s aliases e hidden) := by
  unfold orderPlace
  split
  · exact .ok _
  · exact .bind (guardSafe_ordinal _ _) fun _ _ _ => .ok _
  · exact .bind (Scope.guardSafe_resolve _ h) fun _ _ _ => .ok _

theorem guardSafe_orderKeys {orderBy : List SortKey} (h : ∀ key ∈ orderBy, key.expr.Closed)
    (s : Scope) (aliases : List (Option String)) (hidden : List Formula) :
    GuardSafe (orderKeys s aliases orderBy hidden) := by
  induction orderBy generalizing hidden with
  | nil => exact .ok _
  | cons key rest ih =>
      obtain ⟨hfirst, hrest⟩ := List.forall_mem_cons.mp h
      refine .bind (guardSafe_orderPlace hfirst s aliases hidden) fun p _ _ => ?_
      exact .bind (ih hrest _) fun _ _ _ => .ok _

theorem guardSafe_unionOrderKey (columns : List String) (key : SortKey) :
    GuardSafe (unionOrderKey columns key) := by
  unfold unionOrderKey
  extract_lets finish
  have hfinish (index? : Option Nat) : GuardSafe (finish index?) := by
    cases index? with
    | some index => exact .ok _
    | none => exact .fail trivial
  split
  · next position _ =>
      have hposition := (guardSafe_ordinal position columns.length).map (f := some)
        (Q := fun _ => True) fun _ _ => trivial
      exact .bind hposition fun index? _ _ => hfinish index?
  · exact hfinish _
  · exact hfinish none

theorem orderRows_guarded (keys : List OrderKey) (width : Nat) {rows : Rows}
    (h : rows.GuardSafe) : Yields Error.NoGuard Rows.GuardSafe (orderRows keys width rows) :=
  .ite (fun _ => .pure h) fun _ => .bind h.collect fun _ _ _ => .pure (Rows.failOnly_ofList _)

theorem guardSafe_rowCount (clause : CountClause) {e : Option Expr} (h : ∀ e' ∈ e, e'.Closed) :
    GuardSafe (rowCount clause e) := by
  cases e with
  | none => exact .ok none
  | some e =>
      refine .bind (Scope.guardSafe_evalConstant (h e rfl)) fun value _ _ => ?_
      split
      · exact .ite (fun _ => .ok _) fun _ => .fail trivial
      · exact .fail trivial

/-- A result without such a failure in the place of a row. -/
abbrev Answer.GuardSafe (answer : Answer) : Prop :=
  answer.rows.GuardSafe

namespace Select

variable {q : Select} {orderBy : List SortKey}

theorem PartsClosed.groupedExprs (h : q.PartsClosed) (horder : ∀ key ∈ orderBy, key.expr.Closed) :
    ∀ e ∈ q.groupedExprs orderBy, e.Closed := by
  intro e he
  rcases List.mem_append.mp he with he | he
  · rcases List.mem_append.mp he with he | he
    · obtain ⟨item, hitem, rfl⟩ := List.mem_map.mp he
      exact h.columns item hitem
    · exact h.having e (Option.mem_toList.mp he)
  · obtain ⟨key, hkey, rfl⟩ := List.mem_map.mp he
    exact horder key hkey

theorem arranged_guarded (h : q.PartsClosed) (horder : ∀ key ∈ orderBy, key.expr.Closed)
    {source : Source} (hsource : source.GuardSafe) :
    Yields Error.NoGuard Source.GuardSafe (q.arranged orderBy source) :=
  .ite (fun _ => Source.grouped_guarded hsource h.groupBy (h.groupedExprs horder))
    fun _ => .pure hsource

theorem kept_guarded (h : q.PartsClosed) {source : Source} (hsource : source.GuardSafe) :
    Yields Error.NoGuard Rows.GuardSafe (q.kept source) := by
  unfold kept
  split
  · next having hhaving =>
      refine .bind (Scope.guardSafe_resolve having (h.having having hhaving)) fun f _ _ => ?_
      exact .pure (hsource.filter fun row _ => Formula.guardSafe_holds f)
  · exact .pure hsource

theorem output_guarded (h : q.PartsClosed) (horder : ∀ key ∈ orderBy, key.expr.Closed)
    {source : Source} (hsource : source.GuardSafe) :
    Yields Error.NoGuard Answer.GuardSafe (q.output orderBy source) := by
  refine .bind (kept_guarded h hsource) fun rows _ hrows => ?_
  refine .bind (.mapM (Q := fun _ => True) fun item hitem => ?_) fun made _ _ => ?_
  · exact guardSafe_outputColumns (h.columns item hitem) _ _
  refine .bind (guardSafe_orderKeys horder _ _ []) fun p _ _ => ?_
  have hprojected : (rows.project (made.flatten.map OutputColumn.formula ++ p.2)).GuardSafe :=
    hrows.project fun row _ => Formula.guardSafe_evalList _
  refine .bind (orderRows_guarded p.1 _ hprojected) fun ordered _ hordered => ?_
  dsimp only
  split
  · exact .bind hordered.collect fun _ _ _ => .pure (Rows.failOnly_ofList _)
  · exact .pure hordered

-- ======================================================= whole queries

theorem coreAnswer_guarded (h : q.PartsClosed) (horder : ∀ key ∈ orderBy, key.expr.Closed)
    (context : Context) {condition : Option Condition} (hcondition : ∀ c ∈ condition, c.Guarded) :
    Yields Error.NoGuard Answer.GuardSafe (q.coreAnswer context condition orderBy) := by
  refine .bind (Source.ofClause_guarded context q.source h.joins) fun source _ hsource => ?_
  refine .bind (filtered_guarded hcondition hsource) fun passed _ hpassed => ?_
  refine .bind (arranged_guarded h horder hpassed) fun arranged _ harranged => ?_
  exact output_guarded h horder harranged

theorem guardSafe_appendBranches {width : Nat} {branches : List (Bool × (Unit → Result Answer))}
    (h : ∀ branch ∈ branches, Yields Error.NoGuard Answer.GuardSafe (branch.2 ()))
    (rows : List Row) : DialectDb.GuardSafe (appendBranches width branches rows) := by
  induction branches generalizing rows with
  | nil => exact .ok rows
  | cons branch rest ih =>
      obtain ⟨hbranch, hrest⟩ := List.forall_mem_cons.mp h
      refine .bind hbranch fun answer _ hanswer => .guard trivial fun _ => ?_
      exact .bind hanswer.collect fun read _ _ => ih hrest _

theorem guardSafe_limited {columns : List String} {rows : Rows} (h : rows.GuardSafe)
    (offset : Nat) (limit : Option Nat) :
    Answer.GuardSafe ⟨columns,
      match limit with
      | some n => (rows.drop offset).take n
      | none => rows.drop offset⟩ := by
  cases limit with
  | none => exact h.drop offset
  | some n => exact (h.drop offset).take n

theorem assemble_guarded (h : q.PartsClosed) (context : Context)
    {condition : Option Condition} (hcondition : ∀ c ∈ condition, c.Guarded)
    {branches : List (Bool × (Unit → Result Answer))}
    (hbranches : ∀ branch ∈ branches, Yields Error.NoGuard Answer.GuardSafe (branch.2 ())) :
    Yields Error.NoGuard Answer.GuardSafe (q.assemble context condition branches) := by
  unfold assemble
  refine .guard trivial fun _ => ?_
  refine .bind (guardSafe_rowCount _ h.offset) fun offset _ _ => ?_
  refine .bind (guardSafe_rowCount _ h.limit) fun limit _ _ => ?_
  refine .ite (fun _ => ?_) fun _ => ?_
  · refine .bind (coreAnswer_guarded h h.orderBy context hcondition) fun answer _ hanswer => ?_
    exact .pure (guardSafe_limited hanswer _ limit)
  · have hnoKeys : ∀ key ∈ ([] : List SortKey), key.expr.Closed :=
      fun _ hkey => absurd hkey List.not_mem_nil
    refine .bind (coreAnswer_guarded h hnoKeys context hcondition) fun first _ hfirst => ?_
    refine .bind hfirst.collect fun read _ _ => ?_
    refine .bind (guardSafe_appendBranches hbranches read) fun rows _ _ => ?_
    refine .bind (.mapM fun key _ => guardSafe_unionOrderKey first.columns key) fun keys _ _ => ?_
    exact .pure (guardSafe_limited (Rows.failOnly_ofList _) _ limit)

end Select

-- ========================================================== subqueries

theorem Answer.GuardSafe.existence {answer : Answer} (h : answer.GuardSafe) :
    Yields Error.NoGuard Expr.Closed answer.existence := by
  unfold Answer.existence
  split
  · exact .pure rfl
  · next row hfirst => exact .bind (Rows.FailOnly.first? h hfirst) fun _ _ _ => .pure rfl

theorem Answer.GuardSafe.members {answer : Answer} (h : answer.GuardSafe) :
    Yields Error.NoGuard (fun items => ∀ e ∈ items, e.Closed) answer.members := by
  refine .ite (fun _ => .fail trivial) fun _ => .bind h.collect fun rows _ _ => .pure fun e he => ?_
  obtain ⟨row, -, rfl⟩ := List.mem_map.mp he
  rfl

mutual

theorem Expr.expand_guarded (context : Context) : ∀ e : Expr, e.Closed →
    Yields Error.NoGuard Expr.Closed (e.expand context)
  | .exists q, h => .bind (Select.answer_guarded q h context) fun _ _ hanswer => hanswer.existence
  | .inQuery e q, h => by
    obtain ⟨hq, he⟩ := (Expr.closed_inQuery e q).mp h
    refine .bind (Select.answer_guarded q hq context) fun _ _ hanswer => ?_
    refine .bind hanswer.members fun items _ hitems => ?_
    refine .bind (Expr.expand_guarded context e he) fun e' _ he' => .pure ?_
    exact (Expr.closed_inList e' items).mpr ⟨he', hitems⟩
  | .call f arguments, h => by
    have harguments := (Expr.closed_call f arguments).mp h
    refine .bind (Expr.expandList_guarded context arguments harguments) fun es _ hes => .pure ?_
    exact (Expr.closed_call f es).mpr hes
  | .unary _ e, h => .bind (Expr.expand_guarded context e h) fun _ _ he => .pure he
  | .binary op l r, h => by
    obtain ⟨hl, hr⟩ := (Expr.closed_binary op l r).mp h
    refine .bind (Expr.expand_guarded context l hl) fun l' _ hl' => ?_
    refine .bind (Expr.expand_guarded context r hr) fun r' _ hr' => .pure ?_
    exact (Expr.closed_binary op l' r').mpr ⟨hl', hr'⟩
  | .inList e items, h => by
    obtain ⟨he, hitems⟩ := (Expr.closed_inList e items).mp h
    refine .bind (Expr.expand_guarded context e he) fun e' _ he' => ?_
    refine .bind (Expr.expandList_guarded context items hitems) fun es _ hes => .pure ?_
    exact (Expr.closed_inList e' es).mpr ⟨he', hes⟩
  | .all, _ => .pure rfl
  | .column .., _ => .pure rfl
  | .literal _, _ => .pure rfl
  | .parameter p, h => absurd h (Expr.not_closed_parameter p)
  | .excluded _, _ => .pure rfl
termination_by structural e => e

theorem Expr.expandList_guarded (context : Context) : ∀ es : List Expr, (∀ e ∈ es, e.Closed) →
    Yields Error.NoGuard (fun es => ∀ e ∈ es, e.Closed) (Expr.expandList context es)
  | [], _ => .pure fun _ he => absurd he List.not_mem_nil
  | e :: es, h => by
    obtain ⟨hfirst, hrest⟩ := List.forall_mem_cons.mp h
    refine .bind (Expr.expand_guarded context e hfirst) fun _ _ he => ?_
    refine .bind (Expr.expandList_guarded context es hrest) fun _ _ hes => ?_
    exact .pure (List.forall_mem_cons.mpr ⟨he, hes⟩)
termination_by structural es => es

theorem Expr.condition?_guarded (context : Context) : ∀ predicate : Option Expr,
    (∀ e ∈ predicate, e.Closed) → ∀ c ∈ Expr.condition? context predicate, c.Guarded
  | none, _, _, hc => nomatch hc
  | some e, h, _, rfl => ⟨h e rfl, fun _ => Expr.expand_guarded _ e (h e rfl)⟩
termination_by structural predicate => predicate

/-- A query without placeholders never fails for what is only guarded
against, at first or in the place of a row. -/
theorem Select.answer_guarded : ∀ q : Select, q.Closed → ∀ context : Context,
    Yields Error.NoGuard Answer.GuardSafe (q.answer context)
  | ⟨_, _, _, _, _, predicate, _, _, unions, _, _, _, _⟩, h, context =>
    have hparts := (Select.closed_iff _).mp h
    Select.assemble_guarded hparts context
      (Expr.condition?_guarded context predicate hparts.predicate)
      (UnionBranch.answers_guarded context unions hparts.unions)
termination_by structural q => q

theorem UnionBranch.answers_guarded (context : Context) : ∀ branches : List UnionBranch,
    (∀ branch ∈ branches, branch.select.Closed) →
      ∀ branch ∈ UnionBranch.answers context branches,
        Yields Error.NoGuard Answer.GuardSafe (branch.2 ())
  | [], _, _, hbranch => nomatch hbranch
  | ⟨_, q⟩ :: rest, h, branch, hbranch => by
    obtain ⟨hfirst, hrest⟩ := List.forall_mem_cons.mp h
    rcases List.mem_cons.mp hbranch with rfl | hbranch
    · exact Select.answer_guarded q hfirst context
    · exact UnionBranch.answers_guarded context rest hrest branch hbranch
termination_by structural branches => branches

end

-- ================================================================ WITH

theorem Cte.guardSafe_evaluate (version : DialectVersion) (store : Store)
    (before : List (String × Relation)) {cte : Cte} (h : cte.body.Closed) :
    GuardSafe (Cte.evaluate version store before cte) := by
  unfold Cte.evaluate
  refine .guard trivial fun _ => ?_
  refine .bind (cte.body.answer_guarded h _) fun answer _ hanswer => ?_
  have hrename : GuardSafe (cte.rename answer) :=
    .bind hanswer.collect fun _ _ _ =>
      .ite (fun _ => .ok _) fun _ => .ite (fun _ => .ok _) fun _ => .fail trivial
  exact .bind hrename fun _ _ _ => .ok _

theorem Select.evaluate_guarded {q : Select} (h : q.Closed) (version : DialectVersion)
    (store : Store) : Yields Error.NoGuard Answer.GuardSafe (q.evaluate version store) := by
  have hparts := q.closed_iff.mp h
  refine .bind (.foldlM (Q := fun _ => True) (fun cte hcte before _ => ?_) trivial) ?_
  · exact Cte.guardSafe_evaluate version store before (hparts.ctes cte hcte)
  · intro ctes _ _
    refine Select.answer_guarded _ ((Select.closed_iff _).mpr ?_) _
    exact { hparts with ctes := nofun }

end DialectDb
