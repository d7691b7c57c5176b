/-
Queries and the places of rows. At every stage rows are as wide as their
scope, and the scope is sound, so what is resolved there is evaluated on
rows that have all its places. For whole queries this is one induction
over queries and expressions: a subquery sees the rows around it as wide
as their layouts, since they are rows of a stage of the query around.
-/
import DialectDb.Proofs.Groups
import DialectDb.Proofs.Places
import DialectDb.Proofs.ScopedRows

namespace DialectDb

-- ============================================================= contexts

/-- What a query reads is regular, and the rows around it are as wide as
their layouts. -/
structure Context.Sound (context : Context) : Prop where
  regular : context.Regular
  outer : ∀ frame ∈ context.outer, frame.Sound

/-- Rows as wide as their scope, which is sound, and no failure for a
place in their stead. -/
structure Source.Sound (source : Source) : Prop where
  scope : source.scope.Sound
  regular : source.Regular
  rows : source.rows.FailOnly Error.NoPlace

theorem Scope.Sound.frame {s : Scope} (h : s.Sound) {row : Row} (hrow : row.length = s.width) :
    (⟨s.layout, row⟩ : Frame).Sound :=
  ⟨h.placed, hrow⟩

/-- The same tables and named queries, inside of other rows. -/
theorem Context.Sound.inside {context : Context} (h : context.Sound) {frames : List Frame}
    (hframes : ∀ frame ∈ frames, frame.Sound) :
    ({ context with outer := frames } : Context).Sound :=
  ⟨⟨h.regular.store, h.regular.ctes⟩, hframes⟩

/-- A row of a scope and those around it are rows to be inside of. -/
theorem Scope.Sound.frames {s : Scope} (h : s.Sound) {row : Row} (hrow : row.length = s.width) :
    ∀ frame ∈ (⟨s.layout, row⟩ :: s.outer : List Frame), frame.Sound :=
  List.forall_mem_cons.mpr ⟨h.frame hrow, h.outer⟩

theorem Context.Regular.relation_yields {context : Context} (h : context.Regular)
    (name : String) : Yields Error.NoPlace Relation.Regular (context.relation name) := by
  refine ⟨fun relation hrelation => h.relation hrelation, fun e he => ?_⟩
  unfold Context.relation at he
  split at he
  · cases he
  · split at he
    · cases he
    · split at he <;> cases he
      trivial

/-- A condition that is resolved in a scope, on a row of it. -/
theorem Scope.placeSafe_holds {s : Scope} {f : Formula} (hf : f.Within s.width) {row : Row}
    (hrow : row.length = s.width) : PlaceSafe (Formula.holds (some f) row) :=
  (Formula.onValues_holds fun _ he => Option.mem_some.mp he ▸ hrow ▸ hf).placeSafe

-- ======================================================= FROM and JOIN

namespace Source

/-- Where the width of rows is known, the scope and the failures are left. -/
theorem yields_sound {r : Result Source} (hregular : ∀ source, r = .ok source → source.Regular)
    (h : Yields Error.NoPlace
      (fun source => source.scope.Sound ∧ source.rows.FailOnly Error.NoPlace) r) :
    Yields Error.NoPlace Sound r :=
  h.mono fun source hsource hsafe => ⟨hsafe.1, hregular source hsource, hsafe.2⟩

theorem first_yields {context : Context} (h : context.Sound) (table : Option TableRef) :
    Yields Error.NoPlace Sound (first context table) := by
  refine yields_sound (fun _ => first_regular h.regular) ?_
  cases table with
  | none => exact .pure ⟨⟨Layout.placed_of_slots rfl, h.outer⟩, Rows.failOnly_ofList _⟩
  | some table =>
      refine .bind (h.regular.relation_yields table.name) fun relation _ _ => .pure ?_
      exact ⟨⟨Layout.placed_of_slots rfl, h.outer⟩, Rows.failOnly_ofList _⟩

variable {source : Source} {relation : Relation} {predicate : Option Formula}

/-- What a join has to tell are combined rows. -/
theorem passes_yields (hsource : source.Regular) (hrelation : relation.Regular)
    (hpredicate : ∀ e ∈ predicate, e.Within (source.scope.width + relation.columns.length))
    {left right : Row} (hleft : .ok left ∈ source.rows.toList) (hright : right ∈ relation.rows)
    {j : Joining} (hj : j.predicate = predicate) : PlaceSafe (j.passes (left ++ right)) := by
  refine (j.onValues_passes fun e he => Formula.onValues_eval e ?_).placeSafe
  rw [List.length_append, hsource left hleft, hrelation right hright]
  exact hpredicate e (hj ▸ he)

theorem joinRows_yields (h : source.Sound) (kind : JoinKind) (hrelation : relation.Regular)
    (hpredicate : ∀ e ∈ predicate, e.Within (source.scope.width + relation.columns.length)) :
    Yields Error.NoPlace (Rows.FailOnly Error.NoPlace)
      (source.joinRows kind relation predicate) := by
  by_cases hkind : kind = .right
  · subst hkind
    rw [joinRows_right]
    refine .bind h.rows.collect fun read hread _ => ?_
    refine Joining.rows_yields (Rows.failOnly_ofList _) fun right left hright hleft => ?_
    have hleft : .ok left ∈ source.rows.toList :=
      Rows.collect_eq_ok.mp hread ▸ List.mem_map_of_mem hleft
    rw [Rows.toList_ofList] at hright
    obtain ⟨right, hright, heq⟩ := List.mem_map.mp hright
    cases heq
    exact passes_yields h.regular hrelation hpredicate hleft hright rfl
  · rw [joinRows_eq source hkind]
    refine Joining.rows_yields h.rows fun left right hleft hright => ?_
    have hpasses := passes_yields h.regular hrelation hpredicate hleft hright
      (j := source.joining kind relation predicate) (by cases kind <;> rfl)
    have hcombine :
        (source.joining kind relation predicate).combine left right = left ++ right := by
      cases kind <;> first | rfl | exact absurd rfl hkind
    rwa [hcombine]

/-- The scope of a join has the columns of both sides. -/
theorem join_width {scope merged : Scope} {label : String}
    (h : scope.merge (Scope.ofColumns label relation.columns) = .ok merged) :
    merged.width = scope.width + relation.columns.length := by
  rw [Scope.merge_width h, Scope.width_ofColumns]

theorem join_yields {context : Context} (hcontext : context.Sound) (h : source.Sound) (j : Join) :
    Yields Error.NoPlace Sound (source.join context j) := by
  refine yields_sound (fun _ => join_regular hcontext.regular h.regular) ?_
  refine .bind (hcontext.regular.relation_yields _) fun relation _ hrelation => ?_
  refine .bind (Scope.merge_yields h.scope _) fun scope hmerge hscope => ?_
  refine .bind (.optionMapM fun e _ => Scope.resolve_yields e hscope)
    fun predicate _ hpredicate => ?_
  rw [join_width hmerge] at hpredicate
  refine .bind (joinRows_yields h j.kind hrelation hpredicate) fun rows _ hrows => ?_
  exact .pure ⟨hscope, hrows⟩

theorem ofClause_yields {context : Context} (h : context.Sound) (table : Option TableRef)
    (joins : List Join) : Yields Error.NoPlace Sound (ofClause context table joins) :=
  .bind (first_yields h table) fun _ _ hfirst =>
    .foldlM (fun j _ _ hsource => join_yields h hsource j) hfirst

end Source

-- =============================================================== WHERE

namespace Condition

variable {c : Condition}

/-- There is a mark for each row. -/
theorem mask_yields {s : Scope} (h : s.Sound) {rows : List Row}
    (hrows : ∀ row ∈ rows, row.length = s.width)
    (hexpand : ∀ row, row.length = s.width → PlaceSafe (c.expand (⟨s.layout, row⟩ :: s.outer))) :
    Yields Error.NoPlace (fun mask => mask.length = rows.length) (c.mask s rows) := by
  have hmarks {f : Row → Result Bool} (hf : ∀ row ∈ rows, PlaceSafe (f row)) :
      Yields Error.NoPlace (fun mask => mask.length = rows.length) (rows.mapM f) :=
    (Yields.mapM hf).mono fun mask hmask _ => (Result.mapM_eq_ok.mp hmask).length_eq.symm
  refine .ite (fun _ => ?_) fun _ => ?_
  · refine .bind (Scope.resolve_yields _ h) fun _ _ _ => hmarks fun row hrow => ?_
    refine .bind (hexpand row (hrows row hrow)) fun e _ _ => ?_
    refine .bind (Scope.resolve_yields e h) fun f _ hf => ?_
    exact Scope.placeSafe_holds hf (hrows row hrow)
  · refine .bind (Scope.resolve_yields _ h) fun f _ hf => hmarks fun row hrow => ?_
    exact Scope.placeSafe_holds hf (hrows row hrow)

theorem select_yields {source : Source} (h : source.Sound)
    (hexpand : ∀ row, row.length = source.scope.width →
      PlaceSafe (c.expand (⟨source.scope.layout, row⟩ :: source.scope.outer))) :
    Yields Error.NoPlace (Rows.FailOnly Error.NoPlace) (c.select source) := by
  refine .ite (fun _ => ?_) fun _ => ?_
  · refine .bind h.rows.collect fun read hread _ => ?_
    refine .bind (mask_yields h.scope (h.regular.collect hread) hexpand) fun mask _ _ => ?_
    exact .pure (Rows.failOnly_ofList _)
  · refine .bind (Scope.resolve_yields _ h.scope) fun f _ hf => .pure (h.rows.filter ?_)
    exact fun row hrow => Scope.placeSafe_holds hf (h.regular row hrow)

end Condition

theorem Select.filtered_yields {condition : Option Condition} {source : Source} (h : source.Sound)
    (hexpand : ∀ c ∈ condition, ∀ row, row.length = source.scope.width →
      PlaceSafe (c.expand (⟨source.scope.layout, row⟩ :: source.scope.outer))) :
    Yields Error.NoPlace Source.Sound (filtered condition source) := by
  cases condition with
  | none => exact .pure h
  | some c =>
      refine .bind (Condition.select_yields h (hexpand c rfl)) fun rows hrows hsafe => ?_
      refine .pure ⟨h.scope, fun row hrow => ?_, hsafe⟩
      exact h.regular row (Condition.mem_of_select hrows hrow)

-- ============================================================ grouping

/-- A grouping by formulas within a width. -/
structure Grouping.Within (width : Nat) (g : Grouping) : Prop where
  keys : Formula.WithinList width g.keys
  calls : ∀ call ∈ g.calls, call.argument.Within width

theorem Scope.Sound.addExpression {s : Scope} (h : s.Sound) (e : Expr) (label : Label) :
    (s.addExpression e label).Sound := by
  refine ⟨fun slot hslot => ?_, h.outer⟩
  show slot.index < (s.labels ++ [label]).length
  rw [List.length_append]
  rcases List.mem_append.mp hslot with hslot | hslot
  · exact Nat.lt_add_right _ (h.placed slot hslot)
  · rw [List.mem_singleton.mp hslot]
    exact Nat.lt_succ_self _

theorem Scope.width_addExpression (s : Scope) (e : Expr) (label : Label) :
    (s.addExpression e label).width = s.width + 1 :=
  List.length_append

section Grouping

variable {s grouped : Scope}

theorem addKeys_yields (h : s.Sound) (hgrouped : grouped.Sound) (keys : List Expr) :
    Yields Error.NoPlace
      (fun p => p.1.Sound ∧ p.1.width = grouped.width + p.2.length ∧
        Formula.WithinList s.width p.2)
      (addKeys s keys grouped) := by
  induction keys generalizing grouped with
  | nil => exact .pure ⟨hgrouped, rfl, trivial⟩
  | cons e rest ih =>
      refine .bind (Scope.resolve_yields e h) fun f _ hf => ?_
      refine .bind (ih (hgrouped.addExpression e _)) fun p _ ⟨hsound, hwidth, hkeys⟩ => ?_
      refine .pure ⟨hsound, ?_, hf, hkeys⟩
      rw [hwidth, Scope.width_addExpression, List.length_cons]
      omega

theorem aggregateArgument_yields (h : s.Sound) (name : String) (arguments : List Expr) :
    Yields Error.NoPlace (Formula.Within s.width) (aggregateArgument s name arguments) := by
  unfold aggregateArgument
  split
  · exact .pure trivial
  · exact Scope.resolve_yields _ h
  · exact .fail trivial

theorem addCalls_yields (h : s.Sound) (hgrouped : grouped.Sound) (es : List Expr) :
    Yields Error.NoPlace
      (fun p => p.1.Sound ∧ p.1.width = grouped.width + p.2.length ∧
        ∀ call ∈ p.2, call.argument.Within s.width)
      (addCalls s es grouped) := by
  have hdone : ∀ call ∈ ([] : List AggregateCall), call.argument.Within s.width :=
    fun _ hcall => absurd hcall List.not_mem_nil
  induction es generalizing grouped with
  | nil => exact .pure ⟨hgrouped, rfl, hdone⟩
  | cons e rest ih =>
      cases e with
      | call name arguments =>
          simp only [addCalls]
          split
          · exact ih hgrouped
          · refine .bind (aggregateArgument_yields h name arguments) fun argument _ hargument => ?_
            refine .bind (ih (hgrouped.addExpression _ _)) fun p _ hp => ?_
            obtain ⟨hsound, hwidth, hcalls⟩ := hp
            refine .pure ⟨hsound, ?_, List.forall_mem_cons.mpr ⟨hargument, hcalls⟩⟩
            rw [hwidth, Scope.width_addExpression, List.length_cons]
            omega
      | _ => exact ih hgrouped

/-- After grouping there is a column for each key and for each aggregate
call. -/
theorem Scope.grouping_yields (h : s.Sound) (keys es : List Expr) :
    Yields Error.NoPlace
      (fun p => p.1.Sound ∧ p.1.width = p.2.keys.length + p.2.calls.length ∧
        p.2.Within s.width)
      (s.grouping keys es) := by
  have hempty : ({ Scope.empty with outer := s.outer } : Scope).Sound :=
    ⟨Layout.placed_of_slots rfl, h.outer⟩
  refine .bind (addKeys_yields h hempty keys) fun p _ ⟨hsound, hkeysWidth, hkeys⟩ => ?_
  refine .bind (addCalls_yields h hsound _) fun p' _ ⟨hsound', hcallsWidth, hcalls⟩ => ?_
  refine .pure ⟨hsound', ?_, hkeys, hcalls⟩
  rw [hcallsWidth, hkeysWidth,
    show ({ Scope.empty with outer := s.outer } : Scope).width = 0 from rfl, Nat.zero_add]

end Grouping

/-- The row of a group has a value for each key and each call. -/
theorem Grouping.haveWidth_rows {g : Grouping} {input rows : Rows} (h : g.rows input = .ok rows) :
    rows.HaveWidth (g.keys.length + g.calls.length) := by
  obtain ⟨read, keys, -, hgrouped, hlist⟩ := rows_eq_ok h
  intro row hrow
  rw [hlist] at hrow
  obtain ⟨key, hkey, hout⟩ := List.mem_map.mp hrow
  obtain ⟨values, rfl, hvalues⟩ := rowOf_eq_ok hout
  have hlength : key.length = g.keys.length := by
    rcases (hgrouped.mem key).mp hkey with ⟨member, -, heval⟩ | ⟨hnone, rfl⟩
    · exact Formula.length_evalList member heval
    · rw [hnone]
      rfl
  rw [List.length_append, hlength, hvalues]

theorem Source.grouped_yields {source : Source} (h : source.Sound) (keys es : List Expr) :
    Yields Error.NoPlace Sound (source.grouped keys es) := by
  refine .bind (Scope.grouping_yields h.scope keys es) fun p _ ⟨hscope, hwidth, hwithin⟩ => ?_
  have hrows : Yields Error.NoPlace (Rows.FailOnly Error.NoPlace) (p.2.rows source.rows) := by
    refine Grouping.rows_yields (fun _ he => he.noPlace) h.rows (fun row hrow => ?_) ?_
    · exact (Formula.onValues_evalList _ (h.regular row hrow ▸ hwithin.keys)).placeSafe
    · intro row hrow call hcall
      exact (Formula.onValues_eval _ (h.regular row hrow ▸ hwithin.calls call hcall)).placeSafe
  refine .bind hrows fun rows heq hrows => .pure ⟨hscope, ?_, hrows⟩
  show rows.HaveWidth p.1.width
  rw [hwidth]
  exact Grouping.haveWidth_rows heq

theorem Select.arranged_yields (q : Select) (orderBy : List SortKey) {source : Source}
    (h : source.Sound) : Yields Error.NoPlace Source.Sound (q.arranged orderBy source) :=
  .ite (fun _ => Source.grouped_yields h _ _) fun _ => .pure h

-- ============================================== select list and ORDER BY

theorem aliasPlace?_lt {aliases : List (Option String)} {e : Expr} {index : Nat}
    (h : aliasPlace? aliases e = some index) : index < aliases.length := by
  unfold aliasPlace? at h
  split at h
  · exact (List.findIdx?_eq_some_iff_getElem.mp h).1
  · cases h

theorem ordinal_yields (position : Int64) (width : Nat) :
    Yields Error.NoPlace (· < width) (ordinal position width) :=
  .ite (fun h => .pure (by omega)) fun _ => .fail trivial

theorem unionOrderKey_yields (columns : List String) (key : SortKey) :
    Yields Error.NoPlace (·.index < columns.length) (unionOrderKey columns key) := by
  unfold unionOrderKey
  extract_lets finish
  have hfinish (index? : Option Nat) (h : ∀ index ∈ index?, index < columns.length) :
      Yields Error.NoPlace (·.index < columns.length) (finish index?) := by
    cases index? with
    | some index => exact .pure (h index rfl)
    | none => exact .fail trivial
  split
  · exact .bind (.map (ordinal_yields _ _) fun index hindex _ h => Option.mem_some.mp h ▸ hindex)
      fun index? _ => hfinish index?
  · exact .bind (.pure fun index hindex => (List.findIdx?_eq_some_iff_getElem.mp hindex).1)
      fun index? _ => hfinish index?
  · exact .bind (.pure fun _ => nofun) fun index? _ => hfinish index?

section Ordering

variable {s : Scope} {aliases : List (Option String)}

theorem orderPlace_yields (h : s.Sound) (e : Expr) {hidden : List Formula}
    (hhidden : Formula.WithinList s.width hidden) :
    Yields Error.NoPlace
      (fun p => Formula.WithinList s.width p.2 ∧ hidden.length ≤ p.2.length ∧
        p.1 < aliases.length + p.2.length)
      (orderPlace s aliases e hidden) := by
  unfold orderPlace
  split
  · next index hindex =>
      exact .pure ⟨hhidden, Nat.le_refl _, Nat.lt_add_right _ (aliasPlace?_lt hindex)⟩
  · refine .bind (ordinal_yields _ _) fun index _ hindex => .pure ?_
    exact ⟨hhidden, Nat.le_refl _, Nat.lt_add_right _ hindex⟩
  · refine .bind (Scope.resolve_yields _ h) fun f _ hf => .pure ⟨?_, ?_, ?_⟩
    · rw [Formula.withinList_iff] at hhidden ⊢
      exact List.forall_mem_append.mpr ⟨hhidden, List.forall_mem_singleton.mpr hf⟩
    · rw [List.length_append]
      exact Nat.le_add_right _ _
    · show _ < aliases.length + (hidden ++ [f]).length
      rw [List.length_append]
      exact Nat.lt_succ_self _

/-- Sort keys are among the columns of the result and those behind
them. -/
theorem orderKeys_yields (h : s.Sound) (orderBy : List SortKey) {hidden : List Formula}
    (hhidden : Formula.WithinList s.width hidden) :
    Yields Error.NoPlace
      (fun p => Formula.WithinList s.width p.2 ∧ hidden.length ≤ p.2.length ∧
        ∀ key ∈ p.1, key.index < aliases.length + p.2.length)
      (orderKeys s aliases orderBy hidden) := by
  induction orderBy generalizing hidden with
  | nil => exact .pure ⟨hhidden, Nat.le_refl _, fun _ hkey => absurd hkey List.not_mem_nil⟩
  | cons key rest ih =>
      refine .bind (orderPlace_yields h key.expr hhidden) fun p _ ⟨hplaced, hmore, hindex⟩ => ?_
      refine .bind (ih hplaced) fun p' _ ⟨hall, hmore', hkeys⟩ => ?_
      refine .pure ⟨hall, hmore.trans hmore', ?_⟩
      refine List.forall_mem_cons.mpr ⟨?_, hkeys⟩
      exact Nat.lt_of_lt_of_le hindex (Nat.add_le_add_left hmore' _)

theorem outputColumns_yields (h : s.Sound) (grouping : Bool) (item : SelectItem) :
    Yields Error.NoPlace (fun columns => ∀ c ∈ columns, c.formula.Within s.width)
      (outputColumns s grouping item) := by
  refine .ite (fun _ => .ite (fun _ => .fail trivial) fun _ => .pure fun c hc => ?_) fun _ => ?_
  · obtain ⟨⟨label, index⟩, hlabel, rfl⟩ := List.mem_map.mp hc
    exact (List.getElem?_eq_some_iff.mp (List.mk_mem_zipIdx_iff_getElem?.mp hlabel)).1
  · refine .bind (Scope.resolve_yields _ h) fun f _ hf => .pure ?_
    exact List.forall_mem_singleton.mpr hf

end Ordering

theorem orderRows_yields (keys : List OrderKey) (width : Nat) {rows : Rows}
    (h : rows.FailOnly Error.NoPlace) :
    Yields Error.NoPlace (Rows.FailOnly Error.NoPlace) (orderRows keys width rows) :=
  .ite (fun _ => .pure h) fun _ => .bind h.collect fun _ _ _ => .pure (Rows.failOnly_ofList _)

/-- A result without failures for a place. -/
def Answer.Sound (answer : Answer) : Prop :=
  answer.rows.FailOnly Error.NoPlace

theorem placeSafe_evalConstant (e : Expr) : PlaceSafe (Scope.evalConstant e) :=
  .bind (Scope.resolve_yields e Scope.sound_empty) fun f _ hf =>
    have hf : f.Within ([] : Row).length := hf
    (Formula.onValues_eval f hf).placeSafe

theorem placeSafe_rowCount (clause : CountClause) (e : Option Expr) :
    PlaceSafe (rowCount clause e) := by
  cases e with
  | none => exact .ok none
  | some e =>
      refine .bind (placeSafe_evalConstant e) fun value _ _ => ?_
      split
      · exact .ite (fun _ => .ok _) fun _ => .fail trivial
      · exact .fail trivial

namespace Select

variable (q : Select) (orderBy : List SortKey)

/-- The columns that a query gives, with their formulas. -/
theorem columns_yields {s : Scope} (h : s.Sound) :
    Yields Error.NoPlace
      (fun made => Formula.WithinList s.width (made.flatten.map OutputColumn.formula))
      (q.columns.mapM (outputColumns s (q.isGrouped orderBy))) := by
  refine (Yields.mapM fun item _ => outputColumns_yields h _ item).mono fun made _ hmade => ?_
  rw [Formula.withinList_iff]
  intro f hf
  obtain ⟨c, hc, rfl⟩ := List.mem_map.mp hf
  obtain ⟨columns, hcolumns, hc⟩ := List.mem_flatten.mp hc
  exact hmade columns hcolumns c hc

theorem kept_yields {source : Source} (h : source.Sound) :
    Yields Error.NoPlace
      (fun rows => rows.FailOnly Error.NoPlace ∧ rows.HaveWidth source.scope.width)
      (q.kept source) := by
  unfold kept
  split
  · next having _ =>
      refine .bind (Scope.resolve_yields having h.scope) fun f _ hf => .pure ⟨h.rows.filter ?_, ?_⟩
      · exact fun row hrow => Scope.placeSafe_holds hf (h.regular row hrow)
      · exact fun row hrow => h.regular row (Rows.mem_of_mem_filter hrow)
  · exact .pure ⟨h.rows, h.regular⟩

theorem output_yields {source : Source} (h : source.Sound) :
    Yields Error.NoPlace Answer.Sound (q.output orderBy source) := by
  refine .bind (q.kept_yields h) fun rows _ hrows => ?_
  refine .bind (q.columns_yields orderBy h.scope) fun made _ hmade => ?_
  refine .bind (orderKeys_yields h.scope orderBy trivial) fun p _ ⟨hhidden, _, _⟩ => ?_
  have hformulas : Formula.WithinList source.scope.width
      (made.flatten.map OutputColumn.formula ++ p.2) := by
    rw [Formula.withinList_iff] at hmade hhidden ⊢
    exact List.forall_mem_append.mpr ⟨hmade, hhidden⟩
  have hprojected := hrows.1.project fun row hrow =>
    (Formula.onValues_evalList _ (hrows.2 row hrow ▸ hformulas)).placeSafe
  refine .bind (orderRows_yields p.1 _ hprojected) fun ordered _ hordered => ?_
  dsimp only
  split
  · exact .bind hordered.collect fun _ _ _ => .pure (Rows.failOnly_ofList _)
  · exact .pure hordered

-- ======================================================= whole queries

theorem coreAnswer_yields {context : Context} (h : context.Sound)
    {condition : Option Condition}
    (hexpand : ∀ c ∈ condition, ∀ s : Scope, s.Sound → ∀ row, row.length = s.width →
      PlaceSafe (c.expand (⟨s.layout, row⟩ :: s.outer))) :
    Yields Error.NoPlace Answer.Sound (q.coreAnswer context condition orderBy) := by
  refine .bind (Source.ofClause_yields h q.source q.joins) fun source _ hsource => ?_
  have hcondition := fun c hc => hexpand c hc source.scope hsource.scope
  refine .bind (filtered_yields hsource hcondition) fun passed _ hpassed => ?_
  refine .bind (q.arranged_yields orderBy hpassed) fun arranged _ harranged => ?_
  exact q.output_yields orderBy harranged

theorem appendBranches_yields {width : Nat} {branches : List (Bool × (Unit → Result Answer))}
    (h : ∀ branch ∈ branches, Yields Error.NoPlace Answer.Sound (branch.2 ()))
    (rows : List Row) : PlaceSafe (appendBranches width branches rows) := by
  induction branches generalizing rows with
  | nil => exact .ok rows
  | cons branch rest ih =>
      obtain ⟨hbranch, hrest⟩ := List.forall_mem_cons.mp h
      refine .bind hbranch fun answer _ hanswer => .guard trivial fun _ => ?_
      exact .bind hanswer.collect fun read _ _ => ih hrest _

theorem limited_sound {columns : List String} {rows : Rows} (h : rows.FailOnly Error.NoPlace)
    (offset : Nat) (limit : Option Nat) :
    Answer.Sound ⟨columns,
      match limit with
      | some n => (rows.drop offset).take n
      | none => rows.drop offset⟩ := by
  cases limit with
  | none => exact h.drop offset
  | some n => exact (h.drop offset).take n

theorem assemble_yields {context : Context} {condition : Option Condition}
    {branches : List (Bool × (Unit → Result Answer))}
    (hcore : ∀ orderBy, Yields Error.NoPlace Answer.Sound (q.coreAnswer context condition orderBy))
    (hbranches : ∀ branch ∈ branches, Yields Error.NoPlace Answer.Sound (branch.2 ())) :
    Yields Error.NoPlace Answer.Sound (q.assemble context condition branches) := by
  unfold assemble
  refine .guard trivial fun _ => ?_
  refine .bind (placeSafe_rowCount _ _) fun offset _ _ => ?_
  refine .bind (placeSafe_rowCount _ _) fun limit _ _ => ?_
  refine .ite (fun _ => ?_) fun _ => ?_
  · exact .bind (hcore q.orderBy) fun answer _ hanswer => .pure (limited_sound hanswer _ limit)
  · refine .bind (hcore []) fun first _ hfirst => ?_
    refine .bind hfirst.collect fun read _ _ => ?_
    refine .bind (appendBranches_yields hbranches read) fun rows _ _ => ?_
    refine .bind (.mapM fun key _ => unionOrderKey_yields first.columns key) fun keys _ _ => ?_
    exact .pure (limited_sound (Rows.failOnly_ofList _) _ limit)

end Select

-- ========================================================== subqueries

theorem Answer.Sound.existence {answer : Answer} (h : answer.Sound) :
    PlaceSafe answer.existence := by
  unfold Answer.existence
  split
  · exact .ok _
  · next row hfirst => exact .bind (h.first? hfirst) fun _ _ _ => .ok _

theorem Answer.Sound.members {answer : Answer} (h : answer.Sound) : PlaceSafe answer.members :=
  .ite (fun _ => .fail trivial) fun _ => .bind h.collect fun _ _ _ => .ok _

mutual

theorem Expr.expand_yields : ∀ (e : Expr) {context : Context}, context.Sound →
    PlaceSafe (e.expand context)
  | .exists q, _, h => .bind (Select.answer_yields q h) fun _ _ hanswer => hanswer.existence
  | .inQuery e q, _, h =>
    .bind (Select.answer_yields q h) fun _ _ hanswer =>
      .bind hanswer.members fun _ _ _ => .bind (Expr.expand_yields e h) fun _ _ _ => .ok _
  | .call _ arguments, _, h => .bind (Expr.expandList_yields arguments h) fun _ _ _ => .ok _
  | .unary _ e, _, h => .bind (Expr.expand_yields e h) fun _ _ _ => .ok _
  | .binary _ l r, _, h =>
    .bind (Expr.expand_yields l h) fun _ _ _ => .bind (Expr.expand_yields r h) fun _ _ _ => .ok _
  | .inList e items, _, h =>
    .bind (Expr.expand_yields e h) fun _ _ _ =>
      .bind (Expr.expandList_yields items h) fun _ _ _ => .ok _
  | .all, _, _ => .ok _
  | .column .., _, _ => .ok _
  | .literal _, _, _ => .ok _
  | .parameter _, _, _ => .ok _
  | .excluded _, _, _ => .ok _
termination_by structural e => e

theorem Expr.expandList_yields : ∀ (es : List Expr) {context : Context}, context.Sound →
    PlaceSafe (Expr.expandList context es)
  | [], _, _ => .ok []
  | e :: es, _, h =>
    .bind (Expr.expand_yields e h) fun _ _ _ =>
      .bind (Expr.expandList_yields es h) fun _ _ _ => .ok _
termination_by structural es => es

theorem Expr.condition?_yields : ∀ (predicate : Option Expr) {context : Context}, context.Sound →
    ∀ c ∈ Expr.condition? context predicate, ∀ s : Scope, s.Sound → ∀ row,
      row.length = s.width → PlaceSafe (c.expand (⟨s.layout, row⟩ :: s.outer))
  | none, _, _, _, hc => nomatch hc
  | some e, _, h, _, rfl => fun _ hs _ hrow => Expr.expand_yields e (h.inside (hs.frames hrow))
termination_by structural predicate => predicate

/-- A query whose rows around are as wide as their layouts never looks at
a place that a row does not have. -/
theorem Select.answer_yields : ∀ (q : Select) {context : Context}, context.Sound →
    Yields Error.NoPlace Answer.Sound (q.answer context)
  | ⟨_, _, _, _, _, predicate, _, _, unions, _, _, _, _⟩, _, h =>
    Select.assemble_yields _
      (fun orderBy => Select.coreAnswer_yields _ orderBy h (Expr.condition?_yields predicate h))
      (UnionBranch.answers_yield unions h)
termination_by structural q => q

theorem UnionBranch.answers_yield : ∀ (branches : List UnionBranch) {context : Context},
    context.Sound → ∀ branch ∈ UnionBranch.answers context branches,
      Yields Error.NoPlace Answer.Sound (branch.2 ())
  | [], _, _, _, hbranch => nomatch hbranch
  | ⟨_, q⟩ :: rest, _, h, branch, hbranch => by
    rcases List.mem_cons.mp hbranch with rfl | hbranch
    · exact Select.answer_yields q h
    · exact UnionBranch.answers_yield rest h branch hbranch
termination_by structural branches => branches

end

-- ================================================================ WITH

/-- Outside of any query there are no rows around. -/
theorem Context.Regular.sound {context : Context} (h : context.Regular)
    (houter : context.outer = []) : context.Sound :=
  ⟨h, by rw [houter]; exact fun _ hframe => absurd hframe List.not_mem_nil⟩

theorem Cte.placeSafe_rename (cte : Cte) {answer : Answer} (h : answer.Sound) :
    PlaceSafe (cte.rename answer) :=
  .bind h.collect fun _ _ _ =>
    .ite (fun _ => .ok _) fun _ => .ite (fun _ => .ok _) fun _ => .fail trivial

theorem Cte.evaluate_yields {version : DialectVersion} {store : Store}
    {before : List (String × Relation)} (h : (⟨store, before, []⟩ : Context).Regular) (cte : Cte) :
    Yields Error.NoPlace (fun after => (⟨store, after, []⟩ : Context).Regular)
      (Cte.evaluate version store before cte) := by
  have hsafe : PlaceSafe (Cte.evaluate version store before cte) := by
    unfold Cte.evaluate
    refine .guard trivial fun _ => ?_
    refine .bind (cte.body.answer_yields (h.sound rfl)) fun answer _ hanswer => ?_
    exact .bind (cte.placeSafe_rename hanswer) fun _ _ _ => .ok _
  exact hsafe.mono fun after hafter _ => Cte.evaluate_regular h hafter

theorem Select.evaluate_yields (q : Select) (version : DialectVersion) {store : Store}
    (h : store.Valid) : Yields Error.NoPlace Answer.Sound (q.evaluate version store) := by
  have hstart : (⟨store, [], []⟩ : Context).Regular :=
    ⟨h, fun _ hcte => absurd hcte List.not_mem_nil⟩
  refine .bind (.foldlM (fun cte _ _ hbefore => Cte.evaluate_yields hbefore cte) hstart) ?_
  exact fun ctes _ hctes => Select.answer_yields _ (hctes.sound rfl)

end DialectDb
