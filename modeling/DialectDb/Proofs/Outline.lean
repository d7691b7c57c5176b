/-
What a query resolves before it looks at a row. Its outline is all that:
the tables it reads, the columns its expressions refer to and the
numbers of columns that have to agree, in the order in which they come
up. The outline looks up names in the tables and in the layouts of the
rows around, and its result is the columns that the query has.

Subqueries are left out of an outline, since a condition with subqueries
is resolved without them, and then with their results row by row.
`SubqueriesNamed` says of the subqueries that are left out, at any
depth, that their own outlines do not fail for a name.
-/
import DialectDb.Execution
import DialectDb.Proofs.Enclosing
import DialectDb.Proofs.NameSafety

namespace DialectDb

-- ============================================================= outlines

/-- The tables without their rows. -/
def Store.emptied (s : Store) : Store :=
  { entries := s.entries.map fun e => { e with stored := { e.stored with rows := [] } } }

/-- The columns of a scope with a row of NULLs. -/
def Scope.frame (s : Scope) : Frame :=
  ⟨s.layout, List.replicate s.width .null⟩

/-- The scope of a join. -/
def Source.joinScope (context : Context) (scope : Scope) (j : Join) : Result Scope := do
  let relation ← context.relation j.table.name
  let scope ← scope.merge (Scope.ofColumns j.table.label relation.columns)
  let _ ← j.predicate.mapM scope.resolve
  return scope

/-- The scope of a FROM clause. -/
def Source.clauseScope (context : Context) (table : Option TableRef) (joins : List Join) :
    Result Scope := do
  joins.foldlM (joinScope context) (← scope <$> first context table)

namespace Select

/-- The columns of the result, given the scope of the later clauses. -/
def outputOutline (q : Select) (orderBy : List SortKey) (scope : Scope) :
    Result (List String) := do
  let _ ← q.having.mapM scope.resolve
  let columns := (← q.columns.mapM (outputColumns scope (q.isGrouped orderBy))).flatten
  let _ ← orderKeys scope (columns.map (·.aliasName)) orderBy []
  return columns.map (·.label.columnName)

def coreOutline (q : Select) (context : Context) (orderBy : List SortKey) :
    Result (List String) := do
  let scope ← Source.clauseScope context q.source q.joins
  let _ ← q.predicate.mapM fun e => scope.resolve e.withoutSubqueries
  q.outputOutline orderBy (← q.clauseScope orderBy scope)

/-- Checks that a UNION branch has as many columns as the first
query. -/
def checkWidth (width : Nat) (branch : Result (List String)) : Result Unit := do
  if (← branch).length ≠ width then throw (.schema .unionWidth)

/-- A query's outline, given those of its UNION branches. -/
def assembleOutline (q : Select) (context : Context) (branches : List (Result (List String))) :
    Result (List String) := do
  if !q.ctes.isEmpty then throw (.invalid .nestedWith)
  let _ ← rowCount .offset q.offset
  let _ ← rowCount .limit q.limit
  if branches.isEmpty then q.coreOutline context q.orderBy
  else do
    let columns ← q.coreOutline context []
    branches.forM (checkWidth columns.length)
    let _ ← q.orderBy.mapM (unionOrderKey columns)
    return columns

end Select

mutual

def Select.outline (context : Context) : Select → Result (List String)
  | ⟨ctes, distinct, columns, source, joins, predicate, groupBy, having, unions, orderBy, offset,
      limit, queryHints⟩ =>
    Select.assembleOutline
      ⟨ctes, distinct, columns, source, joins, predicate, groupBy, having, unions, orderBy, offset,
        limit, queryHints⟩
      context (UnionBranch.outlines context unions)
termination_by structural q => q

def UnionBranch.outlines (context : Context) : List UnionBranch → List (Result (List String))
  | [] => []
  | ⟨_, select⟩ :: rest => select.outline context :: UnionBranch.outlines context rest
termination_by structural branches => branches

end

mutual

/-- The outlines of the subqueries of an expression do not fail for a
name, and neither do those of the subqueries in them. -/
def Expr.SubqueriesNamed (context : Context) : Expr → Prop
  | .exists q => NameSafe (q.outline context) ∧ q.SubqueriesNamed context
  | .inQuery e q =>
    e.SubqueriesNamed context ∧ NameSafe (q.outline context) ∧ q.SubqueriesNamed context
  | .call _ arguments => Expr.SubqueriesNamedOfList context arguments
  | .unary _ e => e.SubqueriesNamed context
  | .binary _ l r => l.SubqueriesNamed context ∧ r.SubqueriesNamed context
  | .inList e items =>
    e.SubqueriesNamed context ∧ Expr.SubqueriesNamedOfList context items
  | _ => True
termination_by structural e => e

def Expr.SubqueriesNamedOfList (context : Context) : List Expr → Prop
  | [] => True
  | e :: es => e.SubqueriesNamed context ∧ Expr.SubqueriesNamedOfList context es
termination_by structural es => es

def Expr.SubqueriesNamedOfOption (context : Context) : Option Expr → Prop
  | none => True
  | some e => e.SubqueriesNamed context
termination_by structural predicate => predicate

/-- The same for the WHERE clauses of a query and its UNION branches,
whose subqueries see the rows of the FROM clause around them. -/
def Select.SubqueriesNamed (context : Context) : Select → Prop
  | ⟨_, _, _, source, joins, predicate, _, _, unions, _, _, _, _⟩ =>
    (∀ scope, Source.clauseScope context source joins = .ok scope →
      Expr.SubqueriesNamedOfOption (context.within (scope.frame :: context.outer)) predicate) ∧
    UnionBranch.SubqueriesNamedOfList context unions
termination_by structural q => q

def UnionBranch.SubqueriesNamedOfList (context : Context) : List UnionBranch → Prop
  | [] => True
  | ⟨_, select⟩ :: rest =>
    select.SubqueriesNamed context ∧ UnionBranch.SubqueriesNamedOfList context rest
termination_by structural branches => branches

end

-- ============================================================ foresight

/-- A computation on rows follows its outline. If it succeeds, so does
the outline, with a result that is related; and it fails for a name only
if the outline does, as long as the subqueries that the outline leaves
out are `named`. -/
structure Follows {α β : Type} (named : Prop) (R : α → β → Prop) (actual : Result α)
    (outline : Result β) : Prop where
  ok : ∀ a, actual = .ok a → ∃ b, outline = .ok b ∧ R a b
  schema : named → ∀ fault, actual = .error (.schema fault) → outline = .error (.schema fault)

namespace Follows

variable {α β γ δ : Type} {named : Prop} {R : α → β → Prop} {S : γ → δ → Prop}
  {x : Result α} {y : Result β} {f : α → Result γ} {g : β → Result δ}

theorem pure {a : α} {b : β} (h : R a b) : Follows named R (.ok a) (.ok b) where
  ok _ hc := ⟨b, rfl, Except.ok.inj hc ▸ h⟩
  schema _ _ := nofun

theorem error (e : Error) : Follows named R (.error e) (.error e) where
  ok _ := nofun
  schema _ fault h := by rw [Except.error.inj h]

theorem refl (x : Result α) : Follows named Eq x x where
  ok a h := ⟨a, h, rfl⟩
  schema _ _ := id

theorem bind (hx : Follows named R x y) (hf : ∀ a b, R a b → Follows named S (f a) (g b)) :
    Follows named S (x >>= f) (y >>= g) where
  ok c h := by
    obtain ⟨a, ha, h⟩ := Result.bind_eq_ok.mp h
    obtain ⟨b, hb, hR⟩ := hx.ok a ha
    obtain ⟨d, hd, hS⟩ := (hf a b hR).ok c h
    exact ⟨d, Result.bind_eq_ok.mpr ⟨b, hb, hd⟩, hS⟩
  schema hnamed fault h := by
    cases x with
    | error e =>
        cases h
        rw [hx.schema hnamed fault rfl]
        rfl
    | ok a =>
        obtain ⟨b, rfl, hR⟩ := hx.ok a rfl
        exact (hf a b hR).schema hnamed fault h

/-- What does not depend on rows comes first in both. -/
theorem bind_same {x : Result α} {f : α → Result γ} {g : α → Result δ}
    (hf : ∀ a, x = .ok a → Follows named S (f a) (g a)) :
    Follows named S (x >>= f) (x >>= g) := by
  cases x with
  | error e => exact error e
  | ok a => exact hf a rfl

/-- What is done on rows alone has no part in the outline. -/
theorem read (hx : named → NameSafe x) {z : Result δ}
    (hf : ∀ a, x = .ok a → Follows named S (f a) z) :
    Follows named S (x >>= f) z where
  ok c h := by
    obtain ⟨a, ha, h⟩ := Result.bind_eq_ok.mp h
    exact (hf a ha).ok c h
  schema hnamed fault h := by
    cases x with
    | error e =>
        cases h
        exact absurd rfl (hx hnamed fault)
    | ok a => exact (hf a rfl).schema hnamed fault h

theorem unread {b : β} (hx : named → NameSafe x) (h : ∀ a, x = .ok a → R a b) :
    Follows named R x (.ok b) where
  ok a ha := ⟨b, rfl, h a ha⟩
  schema hnamed fault hfault := absurd hfault (hx hnamed fault)

/-- What the results are is known where both have succeeded. -/
theorem attach (h : Follows named R x y) :
    Follows named (fun a b => x = .ok a ∧ y = .ok b ∧ R a b) x y where
  ok a ha := by
    obtain ⟨b, hb, hR⟩ := h.ok a ha
    exact ⟨b, hb, ha, hb, hR⟩
  schema := h.schema

theorem imp {R' : α → β → Prop} (h : Follows named R x y) (himp : ∀ a b, R a b → R' a b) :
    Follows named R' x y where
  ok a ha := by
    obtain ⟨b, hb, hR⟩ := h.ok a ha
    exact ⟨b, hb, himp a b hR⟩
  schema := h.schema

theorem map {h : α → γ} {k : β → δ} (hx : Follows named R x y)
    (himp : ∀ a b, R a b → S (h a) (k b)) : Follows named S (h <$> x) (k <$> y) := by
  rw [← bind_pure_comp, ← bind_pure_comp]
  exact hx.bind fun a b hR => pure (himp a b hR)

/-- What comes last and adds nothing to the outline. -/
theorem bind_ok {g : α → Result γ} {T : γ → β → Prop} (hx : Follows named R x y)
    (hf : ∀ a b, R a b → Follows named T (g a) (.ok b)) : Follows named T (x >>= g) y := by
  rw [← bind_pure y]
  exact hx.bind hf

/-- An outline can forget its result. -/
theorem forget (hx : Follows named R x y) (g : β → δ) :
    Follows named (fun _ _ => True) x (y >>= fun b => .ok (g b)) := by
  rw [← bind_pure x]
  exact hx.bind fun _ _ _ => pure trivial

theorem mono {named' : Prop} (h : Follows named' R x y) (hnamed : named → named') :
    Follows named R x y :=
  ⟨h.ok, fun hn => h.schema (hnamed hn)⟩

theorem ite {p : Prop} [Decidable p] {x' : Result α} {y' : Result β}
    (hx : p → Follows named R x y) (hy : ¬p → Follows named R x' y') :
    Follows named R (if p then x else x') (if p then y else y') := by
  split
  · next h => exact hx h
  · next h => exact hy h

/-- Of two ways to go on, each follows the same outline. -/
theorem split {p : Prop} [Decidable p] {x' : Result α} (hx : p → Follows named R x y)
    (hy : ¬p → Follows named R x' y) : Follows named R (if p then x else x') y := by
  split
  · next h => exact hx h
  · next h => exact hy h

/-- A failure on the same condition comes first in both. -/
theorem guard {p : Prop} [Decidable p] {e : Error} {f : PUnit → Result γ} {g : PUnit → Result δ}
    (h : ¬p → Follows named S (f ⟨⟩) (g ⟨⟩)) :
    Follows named S (if p then throw e >>= f else f ⟨⟩) (if p then throw e >>= g else g ⟨⟩) :=
  ite (fun _ => error e) h

theorem mapM {f : α → Result γ} {g : α → Result δ} {items : List α}
    (h : ∀ a ∈ items, Follows named S (f a) (g a)) :
    Follows named (List.Forall₂ S) (items.mapM f) (items.mapM g) := by
  induction items with
  | nil => exact pure .nil
  | cons a rest ih =>
      rw [List.mapM_cons, List.mapM_cons]
      refine bind (h a List.mem_cons_self) fun b b' hb => ?_
      exact bind (ih fun c hc => h c (List.mem_cons_of_mem a hc)) fun bs bs' hbs => pure (.cons hb hbs)

theorem optionMapM {f : α → Result γ} {g : α → Result δ} (o : Option α)
    (h : ∀ a ∈ o, Follows named S (f a) (g a)) :
    Follows named (Option.Rel S) (o.mapM f) (o.mapM g) := by
  cases o with
  | none => exact pure .none
  | some a =>
      rw [Option.mapM_some, Option.mapM_some]
      exact (h a rfl).map fun _ _ => .some

theorem foldlM {f : β → α → Result β} {g : δ → α → Result δ} {R : β → δ → Prop} {items : List α}
    (step : ∀ a ∈ items, ∀ b d, R b d → Follows named R (f b a) (g d a)) {b : β} {d : δ}
    (h : R b d) : Follows named R (items.foldlM f b) (items.foldlM g d) := by
  induction items generalizing b d with
  | nil => exact pure h
  | cons a rest ih =>
      rw [List.foldlM_cons, List.foldlM_cons]
      refine bind (step a List.mem_cons_self b d h) fun b' d' h' => ?_
      exact ih (fun c hc => step c (List.mem_cons_of_mem a hc)) h'

end Follows

end DialectDb
