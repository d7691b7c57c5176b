/-
Queries with every look checked. A formula is evaluated only on rows of
the scope that it was resolved in, labels and sort keys are items of
their lists, and a mask stands beside the rows that it is about. Where
relations are regular and the rows around are as wide as their layouts,
such a query finds all that it looks at, and is the plain one: that goes
by one induction over queries and expressions, along the stages of a
query.
-/
import DialectDb.Proofs.CheckedRows

namespace DialectDb.Checked

-- ======================================================= FROM and JOIN

/-- The rows of a join, whose condition is one of the joined scope. -/
def joinRows (s : Scope) (source : Source) (kind : JoinKind) (relation : Relation)
    (predicate : Option Formula) : Checked Rows :=
  let joining := source.joining kind relation predicate
  if kind = .right then do
    joined s joining (← of source.rows.collect) (Rows.ofList relation.rows)
  else joined s joining relation.rows source.rows

def join (context : Context) (source : Source) (j : Join) : Checked Source := do
  let relation ← of (context.relation j.table.name)
  let scope ← of (source.scope.merge (Scope.ofColumns j.table.label relation.columns))
  let predicate ← of (j.predicate.mapM scope.resolve)
  return ⟨scope, ← joinRows scope source j.kind relation predicate⟩

def ofClause (context : Context) (table : Option TableRef) (joins : List Join) :
    Checked Source := do
  joins.foldlM (join context) (← of (Source.first context table))

section Joins

variable {context : Context} {source : Source} {relation : Relation} {predicate : Option Formula}

theorem finds_joinRows {s : Scope} (h : source.Sound) (hrelation : relation.Regular)
    (hwidth : s.width = source.scope.width + relation.columns.length)
    (hpredicate : ∀ e ∈ predicate, e.Within s.width) (kind : JoinKind) :
    (joinRows s source kind relation predicate).Finds
      (source.joinRows kind relation predicate) := by
  have hpasses {left right : Row} (hleft : .ok left ∈ source.rows.toList)
      (hright : right ∈ relation.rows) {j : Joining} (hj : j.predicate = predicate) :
      (onRow s j.passes (left ++ right)).Finds (j.passes (left ++ right)) := by
    refine finds_onRow ?_
      (Source.passes_yields h.regular hrelation (hwidth ▸ hpredicate) hleft hright hj)
    rw [List.length_append, h.regular left hleft, hrelation right hright, hwidth]
  unfold joinRows
  by_cases hkind : kind = .right
  · subst hkind
    rw [if_pos rfl, Source.joinRows_right]
    refine .of_bind h.rows.collect fun read hread _ => ?_
    refine finds_joined (Rows.failOnly_ofList _) fun right hright left hleft => ?_
    have hleft : .ok left ∈ source.rows.toList :=
      Rows.collect_eq_ok.mp hread ▸ List.mem_map_of_mem hleft
    rw [Rows.toList_ofList] at hright
    obtain ⟨right, hright, heq⟩ := List.mem_map.mp hright
    cases heq
    exact hpasses hleft hright rfl
  · rw [if_neg hkind, Source.joinRows_eq source hkind]
    refine finds_joined h.rows fun left hleft right hright => ?_
    cases kind <;> first | exact absurd rfl hkind | exact hpasses hleft hright rfl

theorem finds_join (hcontext : context.Sound) (h : source.Sound) (j : Join) :
    (join context source j).Finds (source.join context j) := by
  refine .of_bind (hcontext.regular.relation_yields j.table.name) fun relation _ hrelation => ?_
  refine .of_bind (Scope.merge_yields h.scope _) fun scope hmerge hscope => ?_
  have hwidth := Source.join_width hmerge
  refine .of_bind (.optionMapM fun e _ => Scope.resolve_yields e hscope) fun _ _ hwithin => ?_
  exact (finds_joinRows h hrelation hwidth hwithin j.kind).bind fun _ _ => .pure _

theorem finds_ofClause (h : context.Sound) (table : Option TableRef) (joins : List Join) :
    (ofClause context table joins).Finds (Source.ofClause context table joins) := by
  refine .of_bind (Source.first_yields h table) fun first _ hfirst => ?_
  refine .foldlM (I := Source.Sound) (fun j _ source hsource => ?_) hfirst
  exact ⟨finds_join h hsource j, (Source.join_yields h hsource j).of_ok⟩

end Joins

-- =============================================================== WHERE

/-- A condition, and what becomes of it inside of the rows around. -/
structure Condition where
  expr : Expr
  expand : List Frame → Checked Expr

namespace Condition

def mask (c : Condition) (scope : Scope) (rows : List Row) : Checked (List Bool) := do
  if c.expr.containsSubquery then
    let _ ← of (scope.resolve c.expr.withoutSubqueries)
    rows.mapM fun row => do
      let e ← c.expand ((← frame scope row) :: scope.outer)
      let formula ← of (scope.resolve e)
      onRow scope (Formula.holds (some formula)) row
  else
    let formula ← of (scope.resolve c.expr)
    rows.mapM (onRow scope (Formula.holds (some formula)))

def select (c : Condition) (source : Source) : Checked Rows := do
  if c.expr.containsSubquery then
    let rows ← of source.rows.collect
    let mask ← c.mask source.scope rows
    return .ofList ((← zip rows mask).filterMap fun (row, keep) => if keep then some row else none)
  else
    filter source.scope (← of (source.scope.resolve c.expr)) source.rows

/-- A checked condition that is a plain one, where the rows around are as
wide as their layouts. -/
structure Asks (c : Condition) (plain : DialectDb.Condition) : Prop where
  expr : c.expr = plain.expr
  safe : ∀ frames, (∀ frame ∈ frames, frame.Sound) → PlaceSafe (plain.expand frames)
  expand : ∀ frames, (∀ frame ∈ frames, frame.Sound) →
    (c.expand frames).Finds (plain.expand frames)

variable {c : Condition} {plain : DialectDb.Condition}

theorem Asks.finds_mask (h : c.Asks plain) {s : Scope} (hs : s.Sound) {rows : List Row}
    (hrows : ∀ row ∈ rows, row.length = s.width) : (c.mask s rows).Finds (plain.mask s rows) := by
  unfold mask DialectDb.Condition.mask
  rw [h.expr]
  refine .ite (fun _ => ?_) fun _ => ?_
  · refine .of_bind (Scope.resolve_yields _ hs) fun _ _ _ => .mapM fun row hrow => ?_
    refine (finds_frame (hrows row hrow)).bind_ok ?_
    have hframes := hs.frames (hrows row hrow)
    refine (h.expand _ hframes).bind fun e _ => ?_
    refine .of_bind (Scope.resolve_yields e hs) fun formula _ hformula => ?_
    exact finds_holds hformula (hrows row hrow)
  · refine .of_bind (Scope.resolve_yields plain.expr hs) fun formula _ hformula => ?_
    exact .mapM fun row hrow => finds_holds hformula (hrows row hrow)

theorem Asks.finds_select (h : c.Asks plain) {source : Source} (hsource : source.Sound) :
    (c.select source).Finds (plain.select source) := by
  unfold select DialectDb.Condition.select
  rw [h.expr]
  refine .ite (fun _ => ?_) fun _ => ?_
  · refine .of_bind hsource.rows.collect fun read hread _ => ?_
    have hrows := hsource.regular.collect hread
    have hmarks := DialectDb.Condition.mask_yields hsource.scope hrows fun row hrow =>
      h.safe _ (hsource.scope.frames hrow)
    refine (h.finds_mask hsource.scope hrows).bind_yields hmarks fun mask _ hlength => ?_
    exact (finds_zip hlength.symm).bind_ok (.pure _)
  · refine .of_bind (Scope.resolve_yields plain.expr hsource.scope) fun formula _ hformula => ?_
    exact finds_filter hformula hsource.regular

end Condition

/-- Inside of a row that is as wide as its scope. -/
theorem Condition.placeSafe_expand {condition : Option Condition}
    {plain : Option DialectDb.Condition} (h : Option.Rel Asks condition plain) :
    ∀ c ∈ plain, ∀ s : Scope, s.Sound → ∀ row, row.length = s.width →
      PlaceSafe (c.expand (⟨s.layout, row⟩ :: s.outer)) := by
  intro c hc s hs row hrow
  cases h with
  | some hasks =>
      cases hc
      exact hasks.safe _ (hs.frames hrow)
  | none => cases hc

def filtered (condition : Option Condition) (source : Source) : Checked Source :=
  match condition with
  | some condition => do return { source with rows := ← condition.select source }
  | none => pure source

theorem finds_filtered {condition : Option Condition} {plain : Option DialectDb.Condition}
    (h : Option.Rel Condition.Asks condition plain) {source : Source} (hsource : source.Sound) :
    (filtered condition source).Finds (Select.filtered plain source) := by
  cases h with
  | some hasks => exact (hasks.finds_select hsource).bind fun _ _ => .pure _
  | none => exact .pure source

-- ============================================================ grouping

/-- The label of an expression that is a column already. -/
def columnLabel (scope : Scope) : Formula → Checked Label
  | .column index => itemAt scope.labels index
  | _ => pure .none

theorem finds_columnLabel {s : Scope} {f : Formula} (h : f.Within s.width) :
    (columnLabel s f).Finds (.ok (DialectDb.columnLabel s f)) := by
  cases f with
  | column index => exact finds_itemAt h .none
  | _ => exact .pure Label.none

def addKeys (scope : Scope) : List Expr → Scope → Checked (Scope × List Formula)
  | [], grouped => pure (grouped, [])
  | e :: rest, grouped => do
    let formula ← of (scope.resolve e)
    let label ← columnLabel scope formula
    let (grouped, formulas) ← addKeys scope rest (grouped.addExpression e label)
    return (grouped, formula :: formulas)

theorem finds_addKeys {s : Scope} (h : s.Sound) (keys : List Expr) (grouped : Scope) :
    (addKeys s keys grouped).Finds (DialectDb.addKeys s keys grouped) := by
  induction keys generalizing grouped with
  | nil => exact .pure _
  | cons e rest ih =>
      refine .of_bind (Scope.resolve_yields e h) fun formula _ hformula => ?_
      refine (finds_columnLabel hformula).bind_ok ?_
      exact (ih _).bind fun _ _ => .pure _

def groupedSource (source : Source) (keys es : List Expr) : Checked Source := do
  let (scope, keys) ← addKeys source.scope keys { Scope.empty with outer := source.scope.outer }
  let (scope, calls) ← of (addCalls source.scope (aggregateCalls es) scope)
  return ⟨scope, ← grouped source.scope { keys, calls } source.rows⟩

theorem finds_groupedSource {source : Source} (h : source.Sound) (keys es : List Expr) :
    (groupedSource source keys es).Finds (source.grouped keys es) := by
  have hgrouping := Scope.grouping_yields h.scope keys es
  have hempty : ({ Scope.empty with outer := source.scope.outer } : Scope).Sound :=
    ⟨Layout.placed_of_slots rfl, h.scope.outer⟩
  have hkeyed := addKeys_yields h.scope hempty keys
  unfold Source.grouped Scope.grouping
  rw [bind_assoc]
  refine (finds_addKeys h.scope keys _).bind_yields hkeyed fun p _ ⟨hscope, _, hkeys⟩ => ?_
  rw [bind_assoc]
  refine .of_bind (addCalls_yields h.scope hscope _) fun p' _ ⟨_, _, hcalls⟩ => ?_
  exact (finds_grouped ⟨hkeys, hcalls⟩ h.rows h.regular).bind fun _ _ => .pure _

-- ============================================== select list and ORDER BY

def outputLabel (scope : Scope) (selected : SelectItem) (formula : Formula) : Checked Label :=
  match selected.aliasName with
  | some aliasName => pure (.unqualified aliasName)
  | none => do
    let label ← columnLabel scope formula
    return match label, selected.expr with
      | .none, .call name _ => .unqualified name
      | label, _ => label

theorem finds_outputLabel {s : Scope} {f : Formula} (h : f.Within s.width)
    (selected : SelectItem) :
    (outputLabel s selected f).Finds (.ok (DialectDb.outputLabel s selected f)) := by
  unfold outputLabel DialectDb.outputLabel
  cases selected.aliasName with
  | some aliasName => exact .pure _
  | none => exact (finds_columnLabel h).bind_ok (.pure _)

def outputColumns (scope : Scope) (grouping : Bool) (selected : SelectItem) :
    Checked (List OutputColumn) :=
  if selected.expr = .all then of (DialectDb.outputColumns scope grouping selected)
  else do
    let formula ← of (scope.resolve selected.expr)
    let label ← outputLabel scope selected formula
    return [{ formula, label, aliasName := selected.aliasName }]

theorem finds_outputColumns {s : Scope} (h : s.Sound) (grouping : Bool) (selected : SelectItem) :
    (outputColumns s grouping selected).Finds (DialectDb.outputColumns s grouping selected) := by
  unfold outputColumns
  split
  · exact finds_of (outputColumns_yields h grouping selected)
  · next hall =>
      unfold DialectDb.outputColumns
      rw [if_neg hall]
      refine .of_bind (Scope.resolve_yields selected.expr h) fun formula _ hformula => ?_
      exact (finds_outputLabel hformula selected).bind_ok (.pure _)

def orderRows (keys : List OrderKey) (width : Nat) (rows : Rows) : Checked Rows := do
  if keys.isEmpty then return rows
  else return Rows.ofList ((← sortRows keys (← of rows.collect)).map (·.take width))

theorem finds_orderRows {keys : List OrderKey} {full : Nat}
    (hkeys : ∀ key ∈ keys, key.index < full) {rows : Rows} (hrows : rows.FailOnly Error.NoPlace)
    (h : rows.HaveWidth full) (width : Nat) :
    (orderRows keys width rows).Finds (DialectDb.orderRows keys width rows) := by
  refine .ite (fun _ => .pure rows) fun _ => ?_
  refine .of_bind hrows.collect fun read hread _ => ?_
  have hsorted : (sortRows keys read).Finds (.ok (DialectDb.sortRows keys read)) :=
    finds_sortRows fun row hrow key hkey => (h.collect hread row hrow).symm ▸ hkeys key hkey
  exact hsorted.bind_ok (.pure _)

-- ================================================================ core

/-- The rows that the selected expressions are evaluated on. -/
def arranged (q : Select) (orderBy : List SortKey) (source : Source) : Checked Source :=
  if q.isGrouped orderBy then groupedSource source q.groupBy (q.groupedExprs orderBy)
  else pure source

def kept (q : Select) (source : Source) : Checked Rows :=
  match q.having with
  | some having => do filter source.scope (← of (source.scope.resolve having)) source.rows
  | none => pure source.rows

/-- The result over the rows that its expressions are evaluated on. -/
def output (q : Select) (orderBy : List SortKey) (source : Source) : Checked Answer := do
  let rows ← kept q source
  let columns := (← q.columns.mapM (outputColumns source.scope (q.isGrouped orderBy))).flatten
  let (keys, hidden) ← of (orderKeys source.scope (columns.map (·.aliasName)) orderBy [])
  let rows ← project source.scope (columns.map (·.formula) ++ hidden) rows
  let rows ← orderRows keys columns.length rows
  let rows ←
    if q.distinct then do pure (Rows.ofList (Rows.distinct (← of rows.collect))) else pure rows
  return ⟨columns.map (·.label.columnName), rows⟩

/-- A query without its UNION branches and row limits. -/
def coreAnswer (q : Select) (context : Context) (condition : Option Condition)
    (orderBy : List SortKey) : Checked Answer := do
  let source ← filtered condition (← ofClause context q.source q.joins)
  output q orderBy (← arranged q orderBy source)

section Core

variable {q : Select} {orderBy : List SortKey} {source : Source}

theorem finds_arranged (h : source.Sound) :
    (arranged q orderBy source).Finds (q.arranged orderBy source) :=
  .ite (fun _ => finds_groupedSource h _ _) fun _ => .pure source

theorem finds_kept (h : source.Sound) : (kept q source).Finds (q.kept source) := by
  unfold kept Select.kept
  cases q.having with
  | none => exact .pure source.rows
  | some having =>
      refine .of_bind (Scope.resolve_yields having h.scope) fun formula _ hformula => ?_
      exact finds_filter hformula h.regular

theorem finds_output (h : source.Sound) :
    (output q orderBy source).Finds (q.output orderBy source) := by
  refine (finds_kept h).bind_yields (q.kept_yields h) fun rows _ ⟨hsafe, hwidth⟩ => ?_
  have hcolumns : (q.columns.mapM (outputColumns source.scope (q.isGrouped orderBy))).Finds
      (q.columns.mapM (DialectDb.outputColumns source.scope (q.isGrouped orderBy))) :=
    .mapM fun selected _ => finds_outputColumns h.scope _ selected
  refine hcolumns.bind_yields (q.columns_yields orderBy h.scope) fun made _ hselected => ?_
  refine .of_bind (orderKeys_yields h.scope orderBy trivial) fun p _ ⟨hhidden, _, hkeys⟩ => ?_
  have hformulas : Formula.WithinList source.scope.width
      (made.flatten.map OutputColumn.formula ++ p.2) := by
    rw [Formula.withinList_iff] at hselected hhidden ⊢
    exact List.forall_mem_append.mpr ⟨hselected, hhidden⟩
  refine (finds_project hformulas hsafe hwidth).bind_ok ?_
  have hprojected := hsafe.project fun row hrow =>
    (Formula.onValues_evalList _ (hwidth row hrow ▸ hformulas)).placeSafe
  have hfull := Rows.haveWidth_project (made.flatten.map OutputColumn.formula ++ p.2) rows
  have hindexes : ∀ key ∈ p.1,
      key.index < (made.flatten.map OutputColumn.formula ++ p.2).length := by
    intro key hkey
    have hindex := hkeys key hkey
    rw [List.length_map] at hindex
    rwa [List.length_append, List.length_map]
  have hordered := orderRows_yields p.1 made.flatten.length hprojected
  refine (finds_orderRows hindexes hprojected hfull _).bind_yields hordered fun _ _ hsorted => ?_
  dsimp only
  split
  · exact .of_bind hsorted.collect fun _ _ _ => .pure _
  · exact .pure _

theorem finds_coreAnswer {context : Context} (h : context.Sound) {condition : Option Condition}
    {plain : Option DialectDb.Condition} (hcondition : Option.Rel Condition.Asks condition plain)
    (q : Select) (orderBy : List SortKey) :
    (coreAnswer q context condition orderBy).Finds (q.coreAnswer context plain orderBy) := by
  have hjoined := Source.ofClause_yields h q.source q.joins
  refine (finds_ofClause h q.source q.joins).bind_yields hjoined fun source _ hsource => ?_
  have hfiltered := Select.filtered_yields hsource fun c hc =>
    Condition.placeSafe_expand hcondition c hc source.scope hsource.scope
  refine (finds_filtered hcondition hsource).bind_yields hfiltered fun passed _ hpassed => ?_
  have harranged := q.arranged_yields orderBy hpassed
  exact (finds_arranged hpassed).bind_yields harranged fun _ _ hready => finds_output hready

end Core

-- ======================================================= whole queries

/-- The value of an expression that refers to no columns. -/
def evalConstant (e : Expr) : Checked Value := do
  onRow Scope.empty (← of (Scope.empty.resolve e)).eval []

theorem finds_evalConstant (e : Expr) : (evalConstant e).Finds (Scope.evalConstant e) := by
  refine .of_bind (Scope.resolve_yields e Scope.sound_empty) fun f _ hf => ?_
  have hf : f.Within ([] : Row).length := hf
  exact finds_onRow rfl (Formula.onValues_eval f hf).placeSafe

def rowCount (clause : CountClause) : Option Expr → Checked (Option Nat)
  | none => pure none
  | some e => do
    match ← evalConstant e with
    | .integer n =>
      if 0 ≤ n.toInt then return some n.toInt.toNat
      else throw (.invalid (.rowCount clause (.integer n)))
    | value => throw (.invalid (.rowCount clause value))

theorem finds_rowCount (clause : CountClause) (e? : Option Expr) :
    (rowCount clause e?).Finds (DialectDb.rowCount clause e?) := by
  cases e? with
  | none => exact .pure none
  | some e =>
      refine (finds_evalConstant e).bind fun value _ => ?_
      cases value with
      | integer n => exact .ite (fun _ => .pure _) fun _ => .throw _
      | _ => exact .throw _

/-- Appends the rows of UNION branches. -/
def appendBranches (width : Nat) :
    List (Bool × (Unit → Checked Answer)) → List Row → Checked (List Row)
  | [], rows => pure rows
  | (all, branch) :: rest, rows => do
    let branch ← branch ()
    if branch.columns.length ≠ width then throw (.schema .unionWidth)
    let rows := rows ++ (← of branch.rows.collect)
    appendBranches width rest (if all then rows else Rows.distinct rows)

/-- A checked branch that is a plain one. -/
structure Gives (branch : Bool × (Unit → Checked Answer)) (plain : Bool × (Unit → Result Answer)) :
    Prop where
  all : branch.1 = plain.1
  finds : (branch.2 ()).Finds (plain.2 ())
  sound : Yields Error.NoPlace Answer.Sound (plain.2 ())

theorem finds_appendBranches {branches : List (Bool × (Unit → Checked Answer))}
    {plain : List (Bool × (Unit → Result Answer))} (h : List.Forall₂ Gives branches plain)
    (width : Nat) (rows : List Row) :
    (appendBranches width branches rows).Finds (Select.appendBranches width plain rows) := by
  induction h generalizing rows with
  | nil => exact .pure rows
  | @cons branch other _ _ hbranch _ ih =>
      obtain ⟨all, x⟩ := branch
      obtain ⟨_, x'⟩ := other
      obtain ⟨rfl, hfinds, hsound⟩ := hbranch
      refine hfinds.bind_yields hsound fun answer _ hanswer => .guard fun _ => ?_
      exact .of_bind hanswer.collect fun read _ _ => ih _

def assemble (q : Select) (context : Context) (condition : Option Condition)
    (branches : List (Bool × (Unit → Checked Answer))) : Checked Answer := do
  if !q.ctes.isEmpty then throw (.invalid .nestedWith)
  let offset ← rowCount .offset q.offset
  let limit ← rowCount .limit q.limit
  let answer ←
    if branches.isEmpty then coreAnswer q context condition q.orderBy
    else do
      let first ← coreAnswer q context condition []
      let rows ← appendBranches first.columns.length branches (← of first.rows.collect)
      let keys ← of (q.orderBy.mapM (unionOrderKey first.columns))
      pure ⟨first.columns, Rows.ofList (← sortRows keys rows)⟩
  let rows := answer.rows.drop (offset.getD 0)
  return { answer with rows := match limit with | some n => rows.take n | none => rows }

theorem finds_assemble {context : Context} (h : context.Sound) {condition : Option Condition}
    {plain : Option DialectDb.Condition} (hcondition : Option.Rel Condition.Asks condition plain)
    {branches : List (Bool × (Unit → Checked Answer))}
    {others : List (Bool × (Unit → Result Answer))} (hbranches : List.Forall₂ Gives branches others)
    (hregular : ∀ branch ∈ others, ∀ answer, branch.2 () = .ok answer → answer.Regular)
    (q : Select) :
    (assemble q context condition branches).Finds (q.assemble context plain others) := by
  have hempty : branches.isEmpty = others.isEmpty := by
    cases hbranches <;> rfl
  unfold assemble Select.assemble
  refine .guard fun _ => ?_
  refine (finds_rowCount .offset q.offset).bind fun offset _ => ?_
  refine (finds_rowCount .limit q.limit).bind fun limit _ => ?_
  dsimp only
  rw [hempty]
  refine .ite (fun _ => ?_) fun _ => ?_
  · exact (finds_coreAnswer h hcondition q q.orderBy).bind fun _ _ => .pure _
  · have hcore := q.coreAnswer_yields [] h (Condition.placeSafe_expand hcondition)
    refine (finds_coreAnswer h hcondition q []).bind_yields hcore fun first hfirst hsound => ?_
    refine .of_bind hsound.collect fun read hread _ => ?_
    have hread := (Select.coreAnswer_regular hfirst).collect hread
    refine (finds_appendBranches hbranches _ read).bind fun rows hrows => ?_
    have hwidth := Select.appendBranches_width hregular hread hrows
    refine .of_bind (.mapM fun key _ => unionOrderKey_yields _ key) fun keys _ hkeys => ?_
    refine (finds_sortRows fun row hrow key hkey => ?_).bind_ok (.pure _)
    rw [hwidth row hrow]
    exact hkeys key hkey

-- ========================================================== subqueries

/-- The list that IN compares with: the first values of all rows. -/
def members (answer : Answer) : Checked (List Expr) := do
  if answer.columns.length ≠ 1 then
    throw (.invalid (.subqueryWidth answer.columns.length))
  let rows ← of answer.rows.collect
  rows.mapM fun row => do return .literal (← itemAt row 0)

theorem finds_members {answer : Answer} (h : answer.Sound) (hregular : answer.Regular) :
    (members answer).Finds answer.members := by
  unfold members Answer.members
  refine .guard fun hsingle => ?_
  refine .of_bind h.collect fun rows hrows _ => .mapM_ok fun row hrow => ?_
  have hwidth := hregular.collect hrows row hrow
  have hfirst : row.headD .null = row[0]?.getD .null := by
    cases row <;> rfl
  rw [hfirst]
  exact (finds_itemAt (by omega) .null).bind_ok (.pure _)

mutual

/-- An expression with its subqueries replaced by their results. -/
def expand (context : Context) : Expr → Checked Expr
  | .exists q => do of (← answer context q).existence
  | .inQuery e q => do
    let items ← members (← answer context q)
    return .inList (← expand context e) items
  | .call f arguments => do return .call f (← expandList context arguments)
  | .unary op e => do return .unary op (← expand context e)
  | .binary op l r => do
    let l ← expand context l
    return .binary op l (← expand context r)
  | .inList e items => do
    let e ← expand context e
    return .inList e (← expandList context items)
  | e => pure e
termination_by structural e => e

def expandList (context : Context) : List Expr → Checked (List Expr)
  | [] => pure []
  | e :: es => do
    let e ← expand context e
    return e :: (← expandList context es)
termination_by structural es => es

/-- A WHERE clause as a condition on rows. -/
def condition? (context : Context) : Option Expr → Option Condition
  | none => none
  | some e => some ⟨e, fun outer => expand { context with outer } e⟩
termination_by structural e => e

def answer (context : Context) : Select → Checked Answer
  | ⟨ctes, distinct, columns, source, joins, predicate, groupBy, having, unions, orderBy, offset,
      limit, queryHints⟩ =>
    assemble
      ⟨ctes, distinct, columns, source, joins, predicate, groupBy, having, unions, orderBy, offset,
        limit, queryHints⟩
      context (condition? context predicate) (answers context unions)
termination_by structural q => q

def answers (context : Context) : List UnionBranch → List (Bool × (Unit → Checked Answer))
  | [] => []
  | ⟨all, select⟩ :: rest => (all, fun _ => answer context select) :: answers context rest
termination_by structural branches => branches

end

mutual

theorem finds_expand : ∀ (e : Expr) {context : Context}, context.Sound →
    (expand context e).Finds (e.expand context)
  | .exists q, _, h =>
    (finds_answer q h).bind_yields (q.answer_yields h) fun _ _ hsound =>
      finds_of hsound.existence
  | .inQuery e q, _, h =>
    (finds_answer q h).bind_yields (q.answer_yields h) fun _ hanswer hsound =>
      (finds_members hsound (q.answer_regular hanswer)).bind fun _ _ =>
        (finds_expand e h).bind fun _ _ => .pure _
  | .call _ arguments, _, h => (finds_expandList arguments h).bind fun _ _ => .pure _
  | .unary _ e, _, h => (finds_expand e h).bind fun _ _ => .pure _
  | .binary _ l r, _, h =>
    (finds_expand l h).bind fun _ _ => (finds_expand r h).bind fun _ _ => .pure _
  | .inList e items, _, h =>
    (finds_expand e h).bind fun _ _ => (finds_expandList items h).bind fun _ _ => .pure _
  | .all, _, _ => .pure _
  | .column .., _, _ => .pure _
  | .literal _, _, _ => .pure _
  | .parameter _, _, _ => .pure _
  | .excluded _, _, _ => .pure _
termination_by structural e => e

theorem finds_expandList : ∀ (es : List Expr) {context : Context}, context.Sound →
    (expandList context es).Finds (Expr.expandList context es)
  | [], _, _ => .pure []
  | e :: es, _, h =>
    (finds_expand e h).bind fun _ _ => (finds_expandList es h).bind fun _ _ => .pure _
termination_by structural es => es

theorem asks_condition? : ∀ (predicate : Option Expr) {context : Context}, context.Sound →
    Option.Rel Condition.Asks (condition? context predicate) (Expr.condition? context predicate)
  | none, _, _ => .none
  | some e, _, h =>
    .some {
      expr := rfl
      safe := fun _ hframes => Expr.expand_yields e (h.inside hframes)
      expand := fun _ hframes => finds_expand e (h.inside hframes) }
termination_by structural predicate => predicate

/-- A query whose rows around are as wide as their layouts finds all that
it looks at. -/
theorem finds_answer : ∀ (q : Select) {context : Context}, context.Sound →
    (answer context q).Finds (q.answer context)
  | ⟨_, _, _, _, _, predicate, _, _, unions, _, _, _, _⟩, context, h =>
    finds_assemble h (asks_condition? predicate h) (gives_answers unions h)
      (UnionBranch.answers_regular unions context) _
termination_by structural q => q

theorem gives_answers : ∀ (branches : List UnionBranch) {context : Context}, context.Sound →
    List.Forall₂ Gives (answers context branches) (UnionBranch.answers context branches)
  | [], _, _ => .nil
  | ⟨_, q⟩ :: rest, _, h => .cons ⟨rfl, finds_answer q h, q.answer_yields h⟩ (gives_answers rest h)
termination_by structural branches => branches

end

-- ================================================================ WITH

def evaluateCte (version : DialectVersion) (store : Store) (before : List (String × Relation))
    (cte : Cte) : Checked (List (String × Relation)) := do
  if cte.recursive then throw (.unsupported version (.recursiveEvaluation cte.name))
  let answer ← answer { store, ctes := before } cte.body
  return before ++ [(cte.name, ← of (cte.rename answer))]

/-- The result of a query over a store. -/
def evaluate (version : DialectVersion) (store : Store) (q : Select) : Checked Answer := do
  let ctes ← q.ctes.foldlM (evaluateCte version store) []
  answer { store, ctes } { q with ctes := [] }

section With

variable {version : DialectVersion} {store : Store}

theorem finds_evaluateCte {before : List (String × Relation)}
    (h : (⟨store, before, []⟩ : Context).Regular) (cte : Cte) :
    (evaluateCte version store before cte).Finds (Cte.evaluate version store before cte) := by
  unfold evaluateCte Cte.evaluate
  have hbody := cte.body.answer_yields (h.sound rfl)
  refine .guard fun _ => ?_
  refine (finds_answer cte.body (h.sound rfl)).bind_yields hbody fun answer _ hsound => ?_
  exact .of_bind (cte.placeSafe_rename hsound) fun _ _ _ => .pure _

theorem finds_evaluate (h : store.Valid) (q : Select) :
    (evaluate version store q).Finds (q.evaluate version store) := by
  have hstart : (⟨store, [], []⟩ : Context).Regular :=
    ⟨h, fun _ hcte => absurd hcte List.not_mem_nil⟩
  have hnamed : (q.ctes.foldlM (evaluateCte version store) []).Finds
      (q.ctes.foldlM (Cte.evaluate version store) []) :=
    .foldlM (fun cte _ _ hbefore =>
      ⟨finds_evaluateCte hbefore cte, (Cte.evaluate_yields hbefore cte).of_ok⟩) hstart
  have hregular : Yields Error.NoPlace (fun ctes => (⟨store, ctes, []⟩ : Context).Regular)
      (q.ctes.foldlM (Cte.evaluate version store) []) :=
    .foldlM (fun cte _ _ hbefore => Cte.evaluate_yields hbefore cte) hstart
  exact hnamed.bind_yields hregular fun _ _ hctes => finds_answer _ (hctes.sound rfl)

end With

end DialectDb.Checked
