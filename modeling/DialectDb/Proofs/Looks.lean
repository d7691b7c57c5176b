/-
Looks at places. Execution evaluates formulas on rows, takes items of
lists by their index and goes through lists side by side. None of these
fails by itself when there is too little to look at: an item that is
missing has a stand-in, and of two lists the longer one is cut off. A
checked computation is one that stops there. It has its values only by
looking at places, so if it does not stop and gives what the plain one
gives, then that one has looked at nothing that is not there.

A stop is no failure. Failures can be passed over, as by an OFFSET; a
stop ends everything.
-/
import DialectDb.Proofs.Places

namespace DialectDb

/-- What is looked at and is not there. -/
inductive Missing
  /-- A row as wide as the scope of a formula. -/
  | width (scope row : Nat)
  /-- An item at an index of a list. -/
  | item (length index : Nat)
  /-- For each item of a list, one of the other. -/
  | partner (length other : Nat)
  /-- The column that a failure is about. -/
  | column (index : Nat)
deriving DecidableEq

/-- A computation that stops at the first look at something that is not
there. Otherwise it gives a result or fails. -/
abbrev Checked (α : Type) := ExceptT Error (Except Missing) α

namespace Checked

variable {α β : Type}

-- ================================================================ looks

def stop (m : Missing) : Checked α := ExceptT.mk (.error m)

/-- What is computed without looks of its own. To fail for a column out
of bounds is to have looked at it. -/
def of (r : Result α) : Checked α :=
  match r with
  | .error (.invalid (.columnOutOfBounds index)) => stop (.column index)
  | r => ExceptT.mk (.ok r)

/-- The result of a computation or its failure, as a value. -/
def attempt (x : Checked α) : Checked (Result α) :=
  ExceptT.mk ((fun r => .ok r) <$> x.run)

/-- What is computed from a row with the formulas of a scope. -/
def onRow (s : Scope) (compute : Row → Result α) (row : Row) : Checked α :=
  if row.length = s.width then of (compute row) else stop (.width s.width row.length)

/-- The item at an index. -/
def itemAt (items : List α) (index : Nat) : Checked α :=
  match items[index]? with
  | some a => pure a
  | none => stop (.item items.length index)

/-- Two lists side by side. -/
def zip (items : List α) (others : List β) : Checked (List (α × β)) :=
  if items.length = others.length then pure (items.zip others)
  else stop (.partner items.length others.length)

/-- A row for the queries inside, with its columns. -/
def frame (s : Scope) (row : Row) : Checked Frame :=
  onRow s (fun row => .ok ⟨s.layout, row⟩) row

-- ================================================================ finds

/-- A checked computation finds all that it looks at, and gives what a
plain one gives. -/
def Finds (x : Checked α) (r : Result α) : Prop :=
  x.run = .ok r

namespace Finds

variable {x : Checked α} {r : Result α}

theorem pure (a : α) : (Pure.pure a : Checked α).Finds (.ok a) := rfl

theorem throw (e : Error) : (MonadExcept.throw e : Checked α).Finds (.error e) := rfl

/-- Two computations one after the other: the first finds all that it
looks at, and unless it fails the second does. -/
theorem bind_iff {f : α → Checked β} {r' : Result β} : (x >>= f).Finds r' ↔
    (∃ e, x.Finds (.error e) ∧ r' = .error e) ∨ ∃ a, x.Finds (.ok a) ∧ (f a).Finds r' := by
  have hrun : (x >>= f).run = x.run >>= ExceptT.bindCont f := rfl
  unfold Finds
  rw [hrun]
  rcases x.run with m | e | a
  · exact ⟨nofun, by rintro (⟨_, h, -⟩ | ⟨_, h, -⟩) <;> cases h⟩
  · constructor
    · intro h
      cases h
      exact .inl ⟨e, rfl, rfl⟩
    · rintro (⟨_, h, rfl⟩ | ⟨_, h, -⟩) <;> cases h
      rfl
  · constructor
    · intro h
      exact .inr ⟨a, rfl, h⟩
    · rintro (⟨_, h, -⟩ | ⟨_, h, hf⟩) <;> cases h
      exact hf

theorem bind {f : α → Checked β} {g : α → Result β} (hx : x.Finds r)
    (hf : ∀ a, r = .ok a → (f a).Finds (g a)) : (x >>= f).Finds (r >>= g) := by
  cases r with
  | error e => exact bind_iff.mpr (.inl ⟨e, hx, rfl⟩)
  | ok a => exact bind_iff.mpr (.inr ⟨a, hx, hf a rfl⟩)

/-- What comes after a result of which something is known. -/
theorem bind_yields {allowed : Error → Prop} {P : α → Prop} {f : α → Checked β}
    {g : α → Result β} (hx : x.Finds r) (hr : Yields allowed P r)
    (hf : ∀ a, r = .ok a → P a → (f a).Finds (g a)) : (x >>= f).Finds (r >>= g) :=
  hx.bind fun a ha => hf a ha (hr.of_ok a ha)

/-- Of a computation with a known result, what comes next is left. -/
theorem bind_ok {a : α} {f : α → Checked β} {r' : Result β} (hx : x.Finds (.ok a))
    (hf : (f a).Finds r') : (x >>= f).Finds r' :=
  bind_iff.mpr (.inr ⟨a, hx, hf⟩)

theorem map (f : α → β) (hx : x.Finds r) : (f <$> x).Finds (f <$> r) := by
  rw [← bind_pure_comp, ← bind_pure_comp]
  exact hx.bind fun a _ => pure (f a)

theorem attempt (hx : x.Finds r) : (Checked.attempt x).Finds (.ok r) := by
  have hrun : (Checked.attempt x).run = (fun r => .ok r) <$> x.run := rfl
  unfold Finds at *
  rw [hrun, hx]
  rfl

theorem ite {p : Prop} [Decidable p] {y : Checked α} {r' : Result α} (hx : p → x.Finds r)
    (hy : ¬p → y.Finds r') : (if p then x else y).Finds (if p then r else r') := by
  split
  · next h => exact hx h
  · next h => exact hy h

/-- What comes after a check. -/
theorem guard {p : Prop} [Decidable p] {e : Error} {f : PUnit → Checked β} {g : PUnit → Result β}
    (h : ¬p → (f ⟨⟩).Finds (g ⟨⟩)) :
    (if p then MonadExcept.throw e >>= f else f ⟨⟩).Finds
      (if p then MonadExcept.throw e >>= g else g ⟨⟩) :=
  ite (fun _ => throw e) h

theorem mapM {f : α → Checked β} {g : α → Result β} {items : List α}
    (h : ∀ a ∈ items, (f a).Finds (g a)) : (items.mapM f).Finds (items.mapM g) := by
  induction items with
  | nil => exact pure []
  | cons a rest ih =>
      obtain ⟨hfirst, hrest⟩ := List.forall_mem_cons.mp h
      rw [List.mapM_cons, List.mapM_cons]
      exact hfirst.bind fun b _ => (ih hrest).bind fun bs _ => pure (b :: bs)

theorem mapM_ok {f : α → Checked β} {g : α → β} {items : List α}
    (h : ∀ a ∈ items, (f a).Finds (.ok (g a))) : (items.mapM f).Finds (.ok (items.map g)) := by
  have hplain : items.mapM (fun a => (.ok (g a) : Result β)) = .ok (items.map g) :=
    Result.mapM_eq_ok.mpr (List.forall₂_map_right_iff.mpr (List.forall₂_same.mpr fun _ _ => rfl))
  exact hplain ▸ mapM h

theorem forM {f : α → Checked PUnit} {g : α → Result PUnit} {items : List α}
    (h : ∀ a ∈ items, (f a).Finds (g a)) : (items.forM f).Finds (items.forM g) := by
  induction items with
  | nil => exact pure PUnit.unit
  | cons a rest ih =>
      obtain ⟨hfirst, hrest⟩ := List.forall_mem_cons.mp h
      exact hfirst.bind fun _ _ => ih hrest

/-- A loop, with what its steps keep. -/
theorem foldlM {I : β → Prop} {f : β → α → Checked β} {g : β → α → Result β} {items : List α}
    (h : ∀ a ∈ items, ∀ b, I b → (f b a).Finds (g b a) ∧ ∀ after, g b a = .ok after → I after)
    {b : β} (hb : I b) : (items.foldlM f b).Finds (items.foldlM g b) := by
  induction items generalizing b with
  | nil => exact pure b
  | cons a rest ih =>
      obtain ⟨hfirst, hrest⟩ := List.forall_mem_cons.mp h
      obtain ⟨hstep, hkeeps⟩ := hfirst b hb
      rw [List.foldlM_cons, List.foldlM_cons]
      exact hstep.bind fun after hafter => ih hrest (hkeeps after hafter)

end Finds

-- ===================================================== what there is

theorem finds_of_iff {r r' : Result α} : (of r).Finds r' ↔
    (∀ index, r ≠ .error (.invalid (.columnOutOfBounds index))) ∧ r = r' := by
  unfold of
  split
  · next index => exact ⟨nofun, fun h => absurd rfl (h.1 index)⟩
  · next h => exact ⟨fun hfound => ⟨h, Except.ok.inj hfound⟩, fun ⟨_, heq⟩ => congrArg Except.ok heq⟩

/-- A formula is evaluated on a row iff the row is as wide as the scope,
and then it does not fail for a column out of bounds. -/
theorem finds_onRow_iff {s : Scope} {compute : Row → Result α} {row : Row} {r : Result α} :
    (onRow s compute row).Finds r ↔ row.length = s.width ∧ (of (compute row)).Finds r := by
  unfold onRow
  split
  · next h => exact ⟨fun hfound => ⟨h, hfound⟩, And.right⟩
  · next h => exact ⟨nofun, fun ⟨hwidth, _⟩ => absurd hwidth h⟩

theorem finds_itemAt_iff {items : List α} {index : Nat} {r : Result α} :
    (itemAt items index).Finds r ↔ ∃ h : index < items.length, .ok items[index] = r := by
  unfold itemAt
  by_cases h : index < items.length
  · rw [List.getElem?_eq_getElem h]
    exact ⟨fun hfound => ⟨h, Except.ok.inj hfound⟩, fun ⟨_, heq⟩ => congrArg Except.ok heq⟩
  · rw [List.getElem?_eq_none (Nat.le_of_not_lt h)]
    exact ⟨nofun, fun ⟨hlt, _⟩ => absurd hlt h⟩

theorem finds_zip_iff {items : List α} {others : List β} {r : Result (List (α × β))} :
    (zip items others).Finds r ↔ items.length = others.length ∧ .ok (items.zip others) = r := by
  unfold zip
  split
  · next h => exact ⟨fun hfound => ⟨h, Except.ok.inj hfound⟩, fun ⟨_, heq⟩ => congrArg Except.ok heq⟩
  · next h => exact ⟨nofun, fun ⟨hlength, _⟩ => absurd hlength h⟩

theorem finds_of {P : α → Prop} {r : Result α} (h : Yields Error.NoPlace P r) :
    (of r).Finds r :=
  finds_of_iff.mpr ⟨fun _ hfailed => h.of_error _ hfailed, rfl⟩

/-- What comes after a computation without looks of its own. -/
theorem Finds.of_bind {P : α → Prop} {r : Result α} {f : α → Checked β} {g : α → Result β}
    (hr : Yields Error.NoPlace P r) (hf : ∀ a, r = .ok a → P a → (f a).Finds (g a)) :
    (of r >>= f).Finds (r >>= g) :=
  (finds_of hr).bind_yields hr hf

theorem finds_onRow {P : α → Prop} {s : Scope} {compute : Row → Result α} {row : Row}
    (hrow : row.length = s.width) (h : Yields Error.NoPlace P (compute row)) :
    (onRow s compute row).Finds (compute row) :=
  finds_onRow_iff.mpr ⟨hrow, finds_of h⟩

theorem finds_itemAt {items : List α} {index : Nat} (h : index < items.length) (d : α) :
    (itemAt items index).Finds (.ok (items[index]?.getD d)) := by
  rw [List.getElem?_eq_getElem h]
  exact finds_itemAt_iff.mpr ⟨h, rfl⟩

theorem finds_rowAt {rows : Array α} {index : Nat} (h : index < rows.size) (d : α) :
    (itemAt rows.toList index).Finds (.ok (rows[index]?.getD d)) := by
  rw [← Array.getElem?_toList]
  exact finds_itemAt h d

theorem finds_zip {items : List α} {others : List β} (h : items.length = others.length) :
    (zip items others).Finds (.ok (items.zip others)) :=
  finds_zip_iff.mpr ⟨h, rfl⟩

theorem finds_frame {s : Scope} {row : Row} (h : row.length = s.width) :
    (frame s row).Finds (.ok ⟨s.layout, row⟩) :=
  finds_onRow h (.ok _)

/-- A condition on rows of the scope that it was resolved in. -/
theorem finds_holds {s : Scope} {f : Formula} (hf : f.Within s.width) {row : Row}
    (hrow : row.length = s.width) :
    (onRow s (Formula.holds (some f)) row).Finds (Formula.holds (some f) row) := by
  have hwithin : ∀ e ∈ some f, e.Within row.length := by
    intro e he
    rw [hrow]
    exact Option.mem_some.mp he ▸ hf
  exact finds_onRow hrow (Formula.onValues_holds hwithin).placeSafe

theorem finds_evalList {s : Scope} {fs : List Formula} (hfs : Formula.WithinList s.width fs)
    {row : Row} (hrow : row.length = s.width) :
    (onRow s (Formula.evalList · fs) row).Finds (Formula.evalList row fs) :=
  finds_onRow hrow (Formula.onValues_evalList fs (hrow ▸ hfs)).placeSafe

end Checked

end DialectDb
