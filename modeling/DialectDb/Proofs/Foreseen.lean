/-
Queries follow their outlines. Whatever the rows are, a query succeeds
only if its outline does, and has the columns that the outline gives;
and it fails for a name, be it when it is evaluated or when its rows are
read, only if the outline does or a subquery is not named.

Each stage follows its part of the outline. For whole queries this is
one induction over queries and expressions, in which the other half is
that subqueries that are named never fail for a name.
-/
import DialectDb.Proofs.Outline

namespace DialectDb

-- ============================================================= columns

/-- Columns around a subquery as an outline has them, with NULLs in
their row. -/
structure Frame.SameColumns (actual outline : Frame) : Prop where
  layout : outline.layout = actual.layout
  slots : actual.layout.slots = []
  row : outline.row = List.replicate actual.layout.labels.length .null

/-- Scopes with the same columns, and around them the same columns. -/
structure Scope.SameColumns (actual outline : Scope) : Prop where
  layout : outline.layout = actual.layout
  outer : List.Forall₂ Frame.SameColumns actual.outer outline.outer

/-- Formulas for the same column, or both for none. The outline knows
constants in the text, and of those around it only that they are there;
it fixes no pattern that the other does not. -/
structure Formula.SameShape (actual outline : Formula) : Prop where
  column : ∀ index, actual = .column index ↔ outline = .column index
  pattern : ∀ text, outline = .const (.string text) → actual = outline

/-- Contexts in which the same relations with the same columns can be
read. -/
structure Context.SameColumns (actual outline : Context) : Prop where
  relation : ∀ name, Follows True (fun r r' => r'.columns = r.columns)
    (actual.relation name) (outline.relation name)
  outer : List.Forall₂ Frame.SameColumns actual.outer outline.outer

variable {named : Prop} {s s' : Scope}

theorem Formula.SameShape.refl (f : Formula) : f.SameShape f :=
  ⟨fun _ => Iff.rfl, fun _ _ => rfl⟩

theorem Formula.SameShape.of_compound {f g : Formula} (hf : ∀ index, f ≠ .column index)
    (hg : ∀ index, g ≠ .column index) (hconst : ∀ value, g ≠ .const value) : f.SameShape g :=
  ⟨fun index => iff_of_false (hf index) (hg index), fun _ h => absurd h (hconst _)⟩

-- ========================================================== resolution

/-- The value around is NULL in an outline. -/
theorem Frame.lookup_follows (table : Option String) (column : String) {frames frames' : List Frame}
    (h : List.Forall₂ Frame.SameColumns frames frames') :
    Follows named (fun _ value => value = .null) (Frame.lookup table column frames)
      (Frame.lookup table column frames') := by
  induction h with
  | nil => exact .error _
  | @cons frame frame' rest rest' hframe _ ih =>
      unfold Frame.lookup
      rw [hframe.layout, Layout.slot?_eq_none hframe.slots]
      refine .bind_same fun index? hfind => ?_
      cases index? with
      | none => exact ih
      | some index =>
          have hnull : frame'.row[index]? = some .null := by
            rw [hframe.row, List.getElem?_replicate, if_pos (Layout.find?_lt hfind)]
          show Follows named _ ((Formula.column index).eval frame.row)
            ((Formula.column index).eval frame'.row)
          simp only [Formula.eval, hnull]
          split
          · exact .pure rfl
          · exact .unread (fun _ => .invalid _) fun value h => by cases h

namespace Scope

theorem resolveColumn_follows (h : s.SameColumns s') (table : Option String) (column : String) :
    Follows named Formula.SameShape (s.resolveColumn table column)
      (s'.resolveColumn table column) := by
  unfold resolveColumn
  rw [h.layout]
  refine .bind_same fun index? _ => ?_
  cases index? with
  | some index => exact .pure (.refl _)
  | none =>
      refine (Frame.lookup_follows table column h.outer).map fun value _ hnull => ?_
      subst hnull
      exact ⟨fun _ => ⟨nofun, nofun⟩, fun _ => nofun⟩

/-- Where the outline fixes a pattern, both have that pattern; otherwise
fixing one fails for no name. -/
theorem like_follows {l l' r r' : Formula} (hr : r.SameShape r') :
    Follows named Formula.SameShape (Formula.like l r) (Formula.like l' r') := by
  by_cases hpattern : ∃ text, r' = .const (.string text)
  · obtain ⟨text, rfl⟩ := hpattern
    obtain rfl := hr.pattern text rfl
    exact .bind_same fun pattern _ => .pure (.of_compound nofun nofun nofun)
  · have hlike : Formula.like l' r' = .ok (.binary .like l' r') := by
      unfold Formula.like
      split
      · next text => exact absurd ⟨text, rfl⟩ hpattern
      · rfl
    rw [hlike]
    unfold Formula.like
    split
    · refine .read (fun _ => (Value.onRow_ofText _).onValues.nameSafe) fun pattern _ => .pure ?_
      exact .of_compound nofun nofun nofun
    · exact .pure (.of_compound nofun nofun nofun)

theorem binaryFormula_follows (op : BinaryOp) {l l' r r' : Formula} (hr : r.SameShape r') :
    Follows named Formula.SameShape (binaryFormula op l r) (binaryFormula op l' r') :=
  .ite (fun _ => like_follows hr) fun _ => .pure (.of_compound nofun nofun nofun)

mutual

/-- Only what is around a subquery is looked up in rows, and there it is
the columns that decide. -/
theorem resolve_follows : ∀ e : Expr, s.SameColumns s' →
    Follows named Formula.SameShape (s.resolve e) (s'.resolve e)
  | e, h => by
    cases hslot : s.layout.slot? e with
    | some index =>
        rw [resolve_of_slot hslot, resolve_of_slot (h.layout ▸ hslot)]
        exact .pure (.refl _)
    | none =>
        have hslot' : s'.layout.slot? e = none := h.layout ▸ hslot
        cases e with
        | all =>
            simp only [resolve, hslot, hslot']
            exact .error _
        | column table name =>
            simp only [resolve, hslot, hslot']
            exact resolveColumn_follows h table name
        | literal value =>
            simp only [resolve, hslot, hslot']
            exact .pure (.refl _)
        | parameter placeholder =>
            simp only [resolve, hslot, hslot']
            exact .error _
        | excluded column =>
            simp only [resolve, hslot, lookup, h.layout]
            exact (Follows.refl _).imp fun f _ heq => heq ▸ .refl f
        | «exists» q =>
            simp only [resolve, hslot, hslot']
            exact .error _
        | inQuery e q =>
            simp only [resolve, hslot, hslot']
            exact .error _
        | call name arguments =>
            simp only [resolve, hslot, hslot']
            refine .ite (fun _ => .error _) fun _ => .bind_same fun function _ => ?_
            refine (resolveList_follows arguments h).bind fun _ _ _ => .pure ?_
            exact .of_compound nofun nofun nofun
        | unary op operand =>
            simp only [resolve, hslot, hslot']
            refine (resolve_follows operand h).bind fun _ _ _ => .pure ?_
            exact .of_compound nofun nofun nofun
        | binary op left right =>
            simp only [resolve, hslot, hslot']
            refine (resolve_follows left h).bind fun _ _ _ => ?_
            exact (resolve_follows right h).bind fun _ _ hr => binaryFormula_follows op hr
        | inList operand items =>
            simp only [resolve, hslot, hslot']
            refine (resolve_follows operand h).bind fun _ _ _ => ?_
            refine (resolveList_follows items h).bind fun _ _ _ => .pure ?_
            exact .of_compound nofun nofun nofun
termination_by structural e => e

theorem resolveList_follows : ∀ es : List Expr, s.SameColumns s' →
    Follows named (List.Forall₂ Formula.SameShape) (s.resolveList es) (s'.resolveList es)
  | [], _ => .pure .nil
  | e :: es, h => by
    simp only [resolveList]
    refine (resolve_follows e h).bind fun _ _ hhead => ?_
    exact (resolveList_follows es h).bind fun _ _ htail => .pure (.cons hhead htail)
termination_by structural es => es

end

end Scope

-- ======================================================= FROM and JOIN

/-- Rows of a FROM clause or behind it, and the scope that the outline
has there. -/
structure Source.Foreseen (named : Prop) (source : Source) (scope : Scope) : Prop where
  scope : source.scope.SameColumns scope
  rows : named → source.rows.NameSafe

variable {d o : Context}

theorem Scope.SameColumns.merge (h : s.SameColumns s') (other : Scope) :
    Follows named Scope.SameColumns (s.merge other) (s'.merge other) := by
  have hlabels : s'.labels = s.labels := congrArg Layout.labels h.layout
  unfold Scope.merge
  rw [hlabels, h.layout]
  cases (tables other.labels).find? (tables s.labels).contains with
  | some table => exact .error _
  | none => exact .pure ⟨rfl, h.outer⟩

namespace Source

theorem first_follows (h : d.SameColumns o) (table : Option TableRef) :
    Follows named (Foreseen named) (first d table) (scope <$> first o table) := by
  cases table with
  | none => exact .pure ⟨⟨rfl, h.outer⟩, fun _ => Rows.nameSafe_ofList _⟩
  | some table =>
      simp only [first, map_bind]
      refine ((h.relation table.name).mono fun _ => trivial).bind fun r r' hcolumns => ?_
      refine .pure ⟨⟨?_, h.outer⟩, fun _ => Rows.nameSafe_ofList _⟩
      rw [hcolumns]

/-- Joining reads rows and fails for no name. -/
theorem nameSafe_joinRows {source : Source} (h : source.rows.NameSafe) (kind : JoinKind)
    (relation : Relation) (predicate : Option Formula) :
    NameSafe (source.joinRows kind relation predicate) ∧
      ∀ rows, source.joinRows kind relation predicate = .ok rows → rows.NameSafe := by
  unfold joinRows
  split
  · refine ⟨.bind h.collect fun read _ => ?_, fun rows hrows => ?_⟩
    · exact (Joining.nameSafe_rows _ read (Rows.nameSafe_ofList _)).1
    · obtain ⟨read, -, hrows⟩ := Result.bind_eq_ok.mp hrows
      exact (Joining.nameSafe_rows _ read (Rows.nameSafe_ofList _)).2 rows hrows
  · exact Joining.nameSafe_rows _ _ h

theorem join_follows (h : d.SameColumns o) {source : Source} {scope : Scope}
    (hsource : source.Foreseen named scope) (j : Join) :
    Follows named (Foreseen named) (join d source j) (joinScope o scope j) := by
  refine ((h.relation j.table.name).mono fun _ => trivial).bind fun r r' hcolumns => ?_
  rw [hcolumns]
  refine (hsource.scope.merge _).bind fun s s' hs => ?_
  refine (Follows.optionMapM _ fun e _ => Scope.resolve_follows e hs).bind fun p p' _ => ?_
  have hrows := fun hnamed => nameSafe_joinRows (hsource.rows hnamed) j.kind r p
  refine .read (fun hnamed => (hrows hnamed).1) fun rows heq => .pure ⟨hs, fun hnamed => ?_⟩
  exact (hrows hnamed).2 rows heq

theorem ofClause_follows (h : d.SameColumns o) (table : Option TableRef) (joins : List Join) :
    Follows named (Foreseen named) (ofClause d table joins) (clauseScope o table joins) :=
  (first_follows h table).bind fun _ _ hfirst =>
    .foldlM (fun j _ _ _ hsource => join_follows h hsource j) hfirst

end Source

-- =============================================================== WHERE

namespace Scope

/-- Resolving fails for a name only at a column, or in the operands. -/
theorem nameSafe_resolve_of_operands (hslots : s.layout.slots = []) {e : Expr}
    (hcolumn : e.isColumn = false) (h : ∀ o ∈ e.operands, NameSafe (s.resolve o)) :
    NameSafe (s.resolve e) := by
  have hslot := Layout.slot?_eq_none hslots e
  have hlist : ∀ es : List Expr, (∀ o ∈ es, o ∈ e.operands) → NameSafe (s.resolveList es) := by
    intro es hes
    induction es with
    | nil => exact .ok []
    | cons o rest ih =>
        refine .bind (h o (hes o List.mem_cons_self)) fun f _ => ?_
        exact .bind (ih fun p hp => hes p (List.mem_cons_of_mem o hp)) fun fs _ => .ok (f :: fs)
  cases e with
  | column table name => cases hcolumn
  | excluded column => cases hcolumn
  | call name arguments =>
      simp only [resolve, hslot]
      have hfunction := (Function.onRow_lookup name arguments.length).onValues.nameSafe
      refine .ite (.invalid _) (.bind hfunction fun function _ => ?_)
      exact .bind (hlist arguments fun _ => id) fun fs _ => .ok _
  | unary op operand =>
      simp only [resolve, hslot]
      exact .bind (h operand List.mem_cons_self) fun f _ => .ok _
  | binary op l r =>
      simp only [resolve, hslot]
      refine .bind (h l List.mem_cons_self) fun f _ => ?_
      refine .bind (h r (List.mem_cons_of_mem l List.mem_cons_self)) fun g _ => ?_
      refine .ite ?_ (.ok _)
      unfold Formula.like
      split
      · exact .bind (Value.onRow_ofText _).onValues.nameSafe fun _ _ => .ok _
      · exact .ok _
  | inList operand items =>
      simp only [resolve, hslot]
      refine .bind (h operand List.mem_cons_self) fun f _ => ?_
      exact .bind (hlist items fun _ => List.mem_cons_of_mem operand) fun fs _ => .ok _
  | literal value =>
      simp only [resolve, hslot]
      exact .ok _
  | _ =>
      simp only [resolve, hslot]
      first | exact .invalid _ | exact .binding _

/-- The operands of what can be resolved can be. -/
theorem resolve_operands (hslots : s.layout.slots = []) {e : Expr} {f : Formula}
    (h : s.resolve e = .ok f) : ∀ o ∈ e.operands, ∃ g, s.resolve o = .ok g := by
  have hslot := Layout.slot?_eq_none hslots e
  have hlist : ∀ {es fs}, s.resolveList es = .ok fs → ∀ o ∈ es, ∃ g, s.resolve o = .ok g := by
    intro es
    induction es with
    | nil => exact fun _ o ho => absurd ho List.not_mem_nil
    | cons e es ih =>
        intro fs h
        obtain ⟨g, hg, h⟩ := Result.bind_eq_ok.mp h
        obtain ⟨gs, hgs, -⟩ := Result.bind_eq_ok.mp h
        exact List.forall_mem_cons.mpr ⟨⟨g, hg⟩, ih hgs⟩
  cases e with
  | call name arguments =>
      simp only [resolve, hslot] at h
      split at h
      · cases h
      · obtain ⟨_, -, h⟩ := Result.bind_eq_ok.mp h
        obtain ⟨_, hfs, -⟩ := Result.bind_eq_ok.mp h
        exact hlist hfs
  | unary op operand =>
      simp only [resolve, hslot] at h
      obtain ⟨g, hg, -⟩ := Result.bind_eq_ok.mp h
      exact List.forall_mem_singleton.mpr ⟨g, hg⟩
  | binary op l r =>
      simp only [resolve, hslot] at h
      obtain ⟨g, hg, h⟩ := Result.bind_eq_ok.mp h
      obtain ⟨g', hg', -⟩ := Result.bind_eq_ok.mp h
      exact List.forall_mem_cons.mpr ⟨⟨g, hg⟩, List.forall_mem_singleton.mpr ⟨g', hg'⟩⟩
  | inList operand items =>
      simp only [resolve, hslot] at h
      obtain ⟨g, hg, h⟩ := Result.bind_eq_ok.mp h
      obtain ⟨_, hgs, -⟩ := Result.bind_eq_ok.mp h
      exact List.forall_mem_cons.mpr ⟨⟨g, hg⟩, hlist hgs⟩
  | inQuery operand q =>
      simp only [resolve, hslot] at h
      cases h
  | _ => exact fun o ho => absurd ho List.not_mem_nil

/-- If an expression without its subqueries can be resolved, then with
their results in their place it fails for no name. -/
theorem nameSafe_resolve_expanded (hslots : s.layout.slots = []) {context : Context}
    {e expanded : Expr} {f : Formula} (hwithout : s.resolve e.withoutSubqueries = .ok f)
    (hexpand : e.expand context = .ok expanded) : NameSafe (s.resolve expanded) := by
  induction e using Expr.operands_induction generalizing expanded f with
  | step e ih =>
      have hoperands : ∀ o ∈ expanded.operands, NameSafe (s.resolve o) := by
        intro o ho
        rcases Expr.operand_of_expand hexpand ho with ⟨value, rfl⟩ | ⟨p, hp, hoperand⟩
        · exact nameSafe_resolve_of_operands hslots rfl nofun
        · have hmem : p.withoutSubqueries ∈ e.withoutSubqueries.operands :=
            Expr.operands_withoutSubqueries e ▸ List.mem_map_of_mem hp
          obtain ⟨g, hg⟩ := resolve_operands hslots hwithout _ hmem
          exact ih p hp hg hoperand
      cases hcolumn : expanded.isColumn with
      | true =>
          obtain rfl := Expr.eq_of_expand_isColumn hexpand hcolumn
          rw [← Expr.withoutSubqueries_of_isColumn hcolumn, hwithout]
          exact .ok f
      | false => exact nameSafe_resolve_of_operands hslots hcolumn hoperands

end Scope

/-- The mask of a WHERE clause follows the resolution of the condition
without its subqueries, if these fail for no name on any row. -/
theorem Condition.mask_follows {e : Expr} (hs : s.SameColumns s') (hslots : s.layout.slots = [])
    (hexpand : named → ∀ row, NameSafe (e.expand (d.within (⟨s.layout, row⟩ :: s.outer))))
    (rows : List Row) :
    Follows named (fun _ _ => True)
      (Condition.mask ⟨e, fun outer => e.expand (d.within outer)⟩ s rows)
      (s'.resolve e.withoutSubqueries) := by
  have hresolve : Follows named _ _ _ := Scope.resolve_follows e.withoutSubqueries hs
  refine .split (fun _ => ?_) fun hnone => ?_
  · refine hresolve.attach.bind_ok fun f f' hf => .unread (fun hnamed => ?_) fun _ _ => trivial
    refine .mapM fun row _ => .bind (hexpand hnamed row) fun expanded hexpanded => ?_
    refine .bind (Scope.nameSafe_resolve_expanded hslots hf.1 hexpanded) fun g _ => ?_
    exact Formula.nameSafe_holds row _
  · rw [Expr.withoutSubqueries_eq_self (Bool.eq_false_iff.mpr hnone)] at hresolve ⊢
    refine hresolve.bind_ok fun f f' _ => .unread (fun _ => ?_) fun _ _ => trivial
    exact .mapM fun row _ => Formula.nameSafe_holds row _

theorem Condition.select_follows {e : Expr} {source : Source}
    (hsource : source.Foreseen named s') (hslots : source.scope.layout.slots = [])
    (hexpand : named → ∀ row,
      NameSafe (e.expand (d.within (⟨source.scope.layout, row⟩ :: source.scope.outer)))) :
    Follows named (fun rows _ => named → rows.NameSafe)
      (Condition.select ⟨e, fun outer => e.expand (d.within outer)⟩ source)
      (s'.resolve e.withoutSubqueries) := by
  refine .split (fun _ => ?_) fun hnone => ?_
  · refine .read (fun hnamed => (hsource.rows hnamed).collect) fun rows _ => ?_
    refine (mask_follows hsource.scope hslots hexpand rows).bind_ok fun mask _ _ => .pure fun _ => ?_
    exact Rows.nameSafe_ofList _
  · rw [Expr.withoutSubqueries_eq_self (Bool.eq_false_iff.mpr hnone)]
    refine (Scope.resolve_follows e hsource.scope).bind_ok fun f f' _ => .pure fun hnamed => ?_
    exact (hsource.rows hnamed).filter f

theorem Select.filtered_follows {predicate : Option Expr} {source : Source}
    (hsource : source.Foreseen named s') (hslots : source.scope.layout.slots = [])
    (hexpand : named → ∀ e ∈ predicate, ∀ row,
      NameSafe (e.expand (d.within (⟨source.scope.layout, row⟩ :: source.scope.outer)))) :
    Follows named (fun passed _ => passed.Foreseen named s')
      (Select.filtered (Expr.condition? d predicate) source)
      (predicate.mapM fun e => s'.resolve e.withoutSubqueries) := by
  cases predicate with
  | none => exact .pure hsource
  | some e =>
      rw [Option.mapM_some, ← bind_pure_comp]
      refine (Condition.select_follows hsource hslots fun hnamed => hexpand hnamed e rfl).bind ?_
      exact fun rows _ hrows => .pure ⟨hsource.scope, hrows⟩

-- ============================================================ grouping

theorem columnLabel_eq (hs : s.SameColumns s') {f f' : Formula} (hf : f.SameShape f') :
    columnLabel s f = columnLabel s' f' := by
  by_cases hcolumn : ∃ index, f = .column index
  · obtain ⟨index, rfl⟩ := hcolumn
    rw [(hf.column index).mp rfl]
    simp only [columnLabel, Scope.labels, hs.layout]
  · have hother : ∀ {g : Formula} (s : Scope), (∀ index, g ≠ .column index) →
        columnLabel s g = .none := by
      intro g s hg
      unfold columnLabel
      split
      · next index => exact absurd rfl (hg index)
      · rfl
    rw [hother s fun index h => hcolumn ⟨index, h⟩,
      hother s' fun index h => hcolumn ⟨index, (hf.column index).mpr h⟩]

theorem Scope.SameColumns.addExpression (h : s.SameColumns s') (e : Expr) (label : Label) :
    (s.addExpression e label).SameColumns (s'.addExpression e label) := by
  refine ⟨?_, h.outer⟩
  simp only [Scope.addExpression, labels, width, h.layout]

theorem addKeys_follows (hs : s.SameColumns s') (keys : List Expr) {g g' : Scope}
    (hg : g.SameColumns g') :
    Follows named (fun p p' => p.1.SameColumns p'.1) (addKeys s keys g) (addKeys s' keys g') := by
  induction keys generalizing g g' with
  | nil => exact .pure hg
  | cons e rest ih =>
      refine (Scope.resolve_follows e hs).bind fun f f' hf => ?_
      rw [columnLabel_eq hs hf]
      exact (ih (hg.addExpression e _)).bind fun p p' hp => .pure hp

theorem aggregateArgument_follows (hs : s.SameColumns s') (name : String) (arguments : List Expr) :
    Follows named (fun _ _ => True) (aggregateArgument s name arguments)
      (aggregateArgument s' name arguments) := by
  unfold aggregateArgument
  split
  · exact .pure trivial
  · exact (Scope.resolve_follows _ hs).imp fun _ _ _ => trivial
  · exact .error _

theorem addCalls_follows (hs : s.SameColumns s') (calls : List Expr) {g g' : Scope}
    (hg : g.SameColumns g') :
    Follows named (fun p p' => p.1.SameColumns p'.1) (addCalls s calls g)
      (addCalls s' calls g') := by
  induction calls generalizing g g' with
  | nil => exact .pure hg
  | cons e rest ih =>
      cases e with
      | call name arguments =>
          simp only [addCalls]
          cases Aggregate.ofName? name with
          | none => exact ih hg
          | some function =>
              refine (aggregateArgument_follows hs name arguments).bind fun _ _ _ => ?_
              exact (ih (hg.addExpression _ _)).bind fun p p' hp => .pure hp
      | _ => exact ih hg

theorem Scope.grouping_follows (hs : s.SameColumns s') (keys es : List Expr) :
    Follows named (fun p p' => p.1.SameColumns p'.1) (s.grouping keys es)
      (s'.grouping keys es) := by
  have hempty : ({ Scope.empty with outer := s.outer } : Scope).SameColumns
      { Scope.empty with outer := s'.outer } := ⟨rfl, hs.outer⟩
  refine (addKeys_follows hs keys hempty).bind fun p p' hp => ?_
  exact (addCalls_follows hs (aggregateCalls es) hp).bind fun c c' hc => .pure hc

theorem Select.arranged_follows (q : Select) (orderBy : List SortKey) {source : Source}
    (hsource : source.Foreseen named s') :
    Follows named (Source.Foreseen named) (q.arranged orderBy source)
      (q.clauseScope orderBy s') := by
  refine .ite (fun _ => ?_) fun _ => .pure hsource
  rw [← bind_pure_comp]
  refine (Scope.grouping_follows hsource.scope _ _).bind fun p p' hp => ?_
  have hrows := fun hnamed => p.2.nameSafe_rows (hsource.rows hnamed)
  exact .unread (fun hnamed => .bind (hrows hnamed).1 fun rows _ => .ok _) fun made hmade => by
    obtain ⟨rows, heq, hmade⟩ := Result.bind_eq_ok.mp hmade
    cases hmade
    exact ⟨hp, fun hnamed => (hrows hnamed).2 rows heq⟩

-- ============================================== select list and ORDER BY

/-- The result of a query and the columns that the outline gives it. -/
structure Answer.Foreseen (named : Prop) (answer : Answer) (columns : List String) : Prop where
  columns : answer.columns = columns
  rows : named → answer.rows.NameSafe

/-- What a column of the result is called. -/
def OutputColumn.heading (c : OutputColumn) : Label × Option String :=
  (c.label, c.aliasName)

namespace Select

variable (q : Select) (orderBy : List SortKey)

theorem kept_follows {source : Source} (hsource : source.Foreseen named s') :
    Follows named (fun rows _ => named → rows.NameSafe) (q.kept source)
      (q.having.mapM s'.resolve) := by
  unfold kept
  split
  · next having hhaving =>
      rw [hhaving, Option.mapM_some, ← bind_pure_comp]
      refine (Scope.resolve_follows having hsource.scope).bind fun f f' _ => .pure fun hnamed => ?_
      exact (hsource.rows hnamed).filter f
  · next hhaving =>
      rw [hhaving]
      exact .pure hsource.rows

theorem outputColumns_follows (hs : s.SameColumns s') (grouping : Bool) (item : SelectItem) :
    Follows named (fun cs cs' => cs.map OutputColumn.heading = cs'.map OutputColumn.heading)
      (outputColumns s grouping item) (outputColumns s' grouping item) := by
  refine .ite (fun _ => .ite (fun _ => .error _) fun _ => .pure ?_) fun _ => ?_
  · simp only [Scope.labels, hs.layout]
  · refine (Scope.resolve_follows item.expr hs).bind fun f f' hf => .pure ?_
    have hlabel : outputLabel s item f = outputLabel s' item f' := by
      unfold outputLabel
      rw [columnLabel_eq hs hf]
    simp only [List.map_cons, List.map_nil, OutputColumn.heading, hlabel]

theorem headings_eq {css css' : List (List OutputColumn)}
    (h : List.Forall₂ (fun cs cs' => cs.map OutputColumn.heading = cs'.map OutputColumn.heading)
      css css') :
    css.flatten.map OutputColumn.heading = css'.flatten.map OutputColumn.heading := by
  induction h with
  | nil => rfl
  | cons hhead _ ih => simp only [List.flatten_cons, List.map_append, hhead, ih]

theorem orderKeys_follows (hs : s.SameColumns s') (aliases : List (Option String))
    (hidden hidden' : List Formula) :
    Follows named (fun _ _ => True) (orderKeys s aliases orderBy hidden)
      (orderKeys s' aliases orderBy hidden') := by
  induction orderBy generalizing hidden hidden' with
  | nil => exact .pure trivial
  | cons key rest ih =>
      refine .bind (R := fun _ _ => True) ?_ fun p p' _ => ?_
      · unfold orderPlace
        split
        · exact .pure trivial
        · exact .bind_same fun _ _ => .pure trivial
        · exact (Scope.resolve_follows _ hs).bind fun _ _ _ => .pure trivial
      · exact (ih p.2 p'.2).bind fun _ _ _ => .pure trivial

theorem nameSafe_orderRows (keys : List OrderKey) (width : Nat) {rows : Rows}
    (h : rows.NameSafe) :
    NameSafe (orderRows keys width rows) ∧
      ∀ ordered, orderRows keys width rows = .ok ordered → ordered.NameSafe := by
  unfold orderRows
  split
  · refine ⟨.ok rows, fun ordered hordered => ?_⟩
    cases hordered
    exact h
  · refine ⟨.bind h.collect fun _ _ => .ok _, fun ordered hordered => ?_⟩
    obtain ⟨_, -, hordered⟩ := Result.bind_eq_ok.mp hordered
    cases hordered
    exact Rows.nameSafe_ofList _

theorem output_follows {source : Source} (hsource : source.Foreseen named s') :
    Follows named (Answer.Foreseen named) (q.output orderBy source)
      (q.outputOutline orderBy s') := by
  refine (q.kept_follows hsource).bind fun rows _ hrows => ?_
  refine .bind (.mapM fun item _ => outputColumns_follows hsource.scope _ item)
    fun css css' hcss => ?_
  have hheadings := headings_eq hcss
  have haliases : css.flatten.map (·.aliasName) = css'.flatten.map (·.aliasName) := by
    have h := congrArg (List.map Prod.snd) hheadings
    rw [List.map_map, List.map_map] at h
    exact h
  have hnames : css.flatten.map (·.label.columnName) = css'.flatten.map (·.label.columnName) := by
    have h := congrArg (List.map (·.1.columnName)) hheadings
    rw [List.map_map, List.map_map] at h
    exact h
  dsimp only
  rw [haliases, hnames]
  refine (orderKeys_follows orderBy hsource.scope _ [] []).bind fun p p' _ => ?_
  have hordered := fun hnamed => nameSafe_orderRows p.1 css.flatten.length
    ((hrows hnamed).project (css.flatten.map (·.formula) ++ p.2))
  refine .read (fun hnamed => (hordered hnamed).1) fun ordered heq => ?_
  have hsafe := fun hnamed => (hordered hnamed).2 ordered heq
  refine .split (fun _ => ?_) fun _ => .pure ⟨rfl, hsafe⟩
  refine .read (fun hnamed => (hsafe hnamed).collect) fun read _ => .pure ⟨rfl, fun _ => ?_⟩
  exact Rows.nameSafe_ofList _

-- ======================================================= whole queries

/-- A query up to HAVING follows its outline, if the subqueries of its
condition fail for no name on any row of the FROM clause. -/
theorem coreAnswer_follows (h : d.SameColumns o)
    (hexpand : named → ∀ scope, Source.clauseScope o q.source q.joins = .ok scope →
      scope.layout.slots = [] → ∀ e ∈ q.predicate, ∀ row,
        NameSafe (e.expand (d.within (⟨scope.layout, row⟩ :: d.outer)))) :
    Follows named (Answer.Foreseen named)
      (q.coreAnswer d (Expr.condition? d q.predicate) orderBy) (q.coreOutline o orderBy) := by
  refine (Source.ofClause_follows h q.source q.joins).attach.bind fun source scope hsource => ?_
  obtain ⟨hclause, hscope, hsource⟩ := hsource
  obtain ⟨houter, hslots⟩ := Source.ofClause_plain hclause
  have hlayout := hsource.scope.layout
  refine (filtered_follows hsource hslots fun hnamed e he row => ?_).bind fun passed _ hpassed => ?_
  · rw [houter, ← hlayout]
    exact hexpand hnamed scope hscope (hlayout ▸ hslots) e he row
  · exact (q.arranged_follows orderBy hpassed).bind fun arranged after harranged =>
      q.output_follows orderBy harranged

theorem appendBranches_follows (width : Nat) {branches : List (Bool × (Unit → Result Answer))}
    {outlines : List (Result (List String))}
    (h : List.Forall₂ (fun branch outline =>
      Follows named (Answer.Foreseen named) (branch.2 ()) outline) branches outlines)
    (rows : List Row) :
    Follows named (fun _ _ => True) (appendBranches width branches rows)
      (outlines.forM (checkWidth width)) := by
  induction h generalizing rows with
  | nil => exact .pure trivial
  | @cons branch outline branches outlines hbranch _ ih =>
      show Follows named _ _ (checkWidth width outline >>= fun _ => outlines.forM (checkWidth width))
      unfold appendBranches checkWidth
      rw [bind_assoc]
      refine hbranch.bind fun answer columns hanswer => ?_
      rw [← hanswer.columns]
      by_cases hwidth : answer.columns.length ≠ width
      · dsimp only
        rw [if_pos hwidth, if_pos hwidth]
        exact .error _
      · dsimp only
        rw [if_neg hwidth, if_neg hwidth]
        exact .read (fun hnamed => (hanswer.rows hnamed).collect) fun read _ => ih _

theorem nameSafe_limited {rows : Rows} (h : rows.NameSafe) (offset : Nat) (limit : Option Nat) :
    Rows.NameSafe
      (match limit with
      | some n => (rows.drop offset).take n
      | none => rows.drop offset) := by
  cases limit with
  | none => exact h.drop offset
  | some n => exact (h.drop offset).take n

theorem assemble_follows {condition : Option Condition}
    {branches : List (Bool × (Unit → Result Answer))} {outlines : List (Result (List String))}
    (hcore : ∀ orderBy, Follows named (Answer.Foreseen named)
      (q.coreAnswer d condition orderBy) (q.coreOutline o orderBy))
    (hbranches : List.Forall₂ (fun branch outline =>
      Follows named (Answer.Foreseen named) (branch.2 ()) outline) branches outlines) :
    Follows named (Answer.Foreseen named) (q.assemble d condition branches)
      (q.assembleOutline o outlines) := by
  unfold assemble assembleOutline
  refine .guard fun _ => ?_
  refine .bind_same fun offset _ => .bind_same fun limit _ => ?_
  have hempty : branches.isEmpty = outlines.isEmpty := by cases hbranches <;> rfl
  rw [hempty]
  refine .ite (fun _ => ?_) fun _ => ?_
  · refine (hcore q.orderBy).bind_ok fun answer columns hanswer => .pure ⟨hanswer.columns, ?_⟩
    exact fun hnamed => nameSafe_limited (hanswer.rows hnamed) _ limit
  · refine (hcore []).bind fun first columns hfirst => ?_
    rw [hfirst.columns]
    refine .read (fun hnamed => (hfirst.rows hnamed).collect) fun read _ => ?_
    refine (appendBranches_follows columns.length hbranches read).bind fun rows _ _ => ?_
    refine .bind_same fun keys _ => .pure ⟨rfl, fun _ => ?_⟩
    exact nameSafe_limited (Rows.nameSafe_ofList _) _ limit

end Select

-- ========================================================== subqueries

/-- What EXISTS and IN make of a result reads its rows. -/
theorem Answer.nameSafe_existence {answer : Answer} (h : answer.rows.NameSafe) :
    NameSafe answer.existence := by
  unfold existence
  split
  · exact .ok _
  · next row hfirst => exact .bind (h.first? hfirst) fun _ _ => .ok _

theorem Answer.nameSafe_members {answer : Answer} (h : answer.rows.NameSafe) :
    NameSafe answer.members :=
  .ite (.invalid _) (.bind h.collect fun _ _ => .ok _)

/-- A query whose outline fails for no name does not either. -/
theorem Follows.nameSafe {α β : Type} {R : α → β → Prop} {x : Result α} {y : Result β}
    (h : Follows named R x y) (hnamed : named) (hy : NameSafe y) : NameSafe x :=
  fun fault hfault => hy fault (h.schema hnamed fault hfault)

theorem Context.SameColumns.within (h : d.SameColumns o) {outer outer' : List Frame}
    (houter : List.Forall₂ Frame.SameColumns outer outer') :
    (d.within outer).SameColumns (o.within outer') :=
  ⟨h.relation, houter⟩

/-- A row of a scope without expressions in it, and the row that an
outline has there. -/
theorem Scope.frame_sameColumns (hslots : s.layout.slots = []) (row : Row) :
    Frame.SameColumns ⟨s.layout, row⟩ s.frame :=
  ⟨rfl, hslots, rfl⟩

mutual

/-- An expression whose subqueries are named does not fail for a name
where they are evaluated. -/
theorem Expr.nameSafe_expand : ∀ (e : Expr) {d o : Context}, d.SameColumns o →
    e.SubqueriesNamed o → NameSafe (e.expand d)
  | .exists q, _, _, h, hnamed => by
    have hanswer := Select.answer_follows q h
    refine .bind (hanswer.nameSafe hnamed.2 hnamed.1) fun answer heq => ?_
    obtain ⟨_, -, hforeseen⟩ := hanswer.ok answer heq
    exact Answer.nameSafe_existence (hforeseen.rows hnamed.2)
  | .inQuery e q, _, _, h, ⟨he, houtline, hq⟩ => by
    have hanswer := Select.answer_follows q h
    refine .bind (hanswer.nameSafe hq houtline) fun answer heq => ?_
    obtain ⟨_, -, hforeseen⟩ := hanswer.ok answer heq
    refine .bind (Answer.nameSafe_members (hforeseen.rows hq)) fun items _ => ?_
    exact .bind (Expr.nameSafe_expand e h he) fun _ _ => .ok _
  | .call _ arguments, _, _, h, hnamed =>
    .bind (Expr.nameSafe_expandList arguments h hnamed) fun _ _ => .ok _
  | .unary _ e, _, _, h, hnamed => .bind (Expr.nameSafe_expand e h hnamed) fun _ _ => .ok _
  | .binary _ l r, _, _, h, hnamed =>
    .bind (Expr.nameSafe_expand l h hnamed.1) fun _ _ =>
      .bind (Expr.nameSafe_expand r h hnamed.2) fun _ _ => .ok _
  | .inList e items, _, _, h, hnamed =>
    .bind (Expr.nameSafe_expand e h hnamed.1) fun _ _ =>
      .bind (Expr.nameSafe_expandList items h hnamed.2) fun _ _ => .ok _
  | .all, _, _, _, _ => .ok _
  | .column .., _, _, _, _ => .ok _
  | .literal _, _, _, _, _ => .ok _
  | .parameter _, _, _, _, _ => .ok _
  | .excluded _, _, _, _, _ => .ok _
termination_by structural e => e

theorem Expr.nameSafe_expandList : ∀ (es : List Expr) {d o : Context}, d.SameColumns o →
    Expr.SubqueriesNamedOfList o es → NameSafe (Expr.expandList d es)
  | [], _, _, _, _ => .ok []
  | e :: es, _, _, h, hnamed =>
    .bind (Expr.nameSafe_expand e h hnamed.1) fun _ _ =>
      .bind (Expr.nameSafe_expandList es h hnamed.2) fun _ _ => .ok _
termination_by structural es => es

theorem Expr.nameSafe_expandOption : ∀ (predicate : Option Expr) {d o : Context},
    d.SameColumns o → Expr.SubqueriesNamedOfOption o predicate →
      ∀ e ∈ predicate, NameSafe (e.expand d)
  | none, _, _, _, _, _, h => nomatch h
  | some e, _, _, h, hnamed, _, rfl => Expr.nameSafe_expand e h hnamed
termination_by structural predicate => predicate

/-- A query follows its outline, as far as the subqueries of its
conditions are named. -/
theorem Select.answer_follows : ∀ (q : Select) {d o : Context}, d.SameColumns o →
    Follows (q.SubqueriesNamed o) (Answer.Foreseen (q.SubqueriesNamed o)) (q.answer d) (q.outline o)
  | ⟨_, _, _, _, _, predicate, _, _, unions, _, _, _, _⟩, d, o, h => by
    refine Select.assemble_follows _ (fun orderBy => ?_) ?_
    · refine Select.coreAnswer_follows _ orderBy h fun hnamed scope hscope hslots e he row => ?_
      refine Expr.nameSafe_expandOption predicate (h.within ?_) (hnamed.1 scope hscope) e he
      exact .cons (Scope.frame_sameColumns hslots row) h.outer
    · exact UnionBranch.answers_follow unions h And.right
termination_by structural q => q

theorem UnionBranch.answers_follow : ∀ (branches : List UnionBranch) {d o : Context} {named : Prop},
    d.SameColumns o → (named → UnionBranch.SubqueriesNamedOfList o branches) →
      List.Forall₂ (fun branch outline =>
        Follows named (Answer.Foreseen named) (branch.2 ()) outline)
        (UnionBranch.answers d branches) (UnionBranch.outlines o branches)
  | [], _, _, _, _, _ => .nil
  | ⟨_, q⟩ :: rest, _, _, _, h, hnamed => by
    refine .cons ?_ (UnionBranch.answers_follow rest h fun hn => (hnamed hn).2)
    refine ((Select.answer_follows q h).mono fun hn => (hnamed hn).1).imp fun answer columns hf => ?_
    exact ⟨hf.columns, fun hn => hf.rows (hnamed hn).1⟩
termination_by structural branches => branches

end

end DialectDb
