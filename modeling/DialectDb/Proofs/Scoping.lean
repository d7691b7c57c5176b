/-
What an expression asks of the rows around. A scope looks up there only
references that its own columns leave open, so rows around that agree on
these make no difference to what an expression resolves to; and a
subquery of WHERE gets to them only past the row that it is evaluated
for.
-/
import DialectDb.Proofs.References

namespace DialectDb

variable {a b outer : List Frame} {rs : List Reference}

-- ============================================================ agreement

/-- Whether an expression has a place in the row. -/
def Layout.hasSlot (layout : Layout) (e : Expr) : Bool :=
  (layout.slot? e).isSome

namespace Frame

/-- Rows around that give some references the same values. -/
def AlikeOn (rs : List Reference) (a b : List Frame) : Prop :=
  ∀ table name, (table, name) ∈ rs → lookup table name a = lookup table name b

/-- Rows around that give the same values to those of some references
which a layout leaves open. -/
def AlikeBeyond (layout : Layout) (rs : List Reference) (a b : List Frame) : Prop :=
  ∀ table name, (table, name) ∈ rs → layout.find? table name = .ok none →
    lookup table name a = lookup table name b

theorem AlikeOn.mono {rs' : List Reference} (h : AlikeOn rs a b) (hsub : rs' ⊆ rs) :
    AlikeOn rs' a b :=
  fun table name hmem => h table name (hsub hmem)

theorem AlikeOn.beyond (h : AlikeOn rs a b) (layout : Layout) : AlikeBeyond layout rs a b :=
  fun table name hmem _ => h table name hmem

theorem AlikeBeyond.mono {layout : Layout} {rs' : List Reference}
    (h : AlikeBeyond layout rs a b) (hsub : rs' ⊆ rs) : AlikeBeyond layout rs' a b :=
  fun table name hmem => h table name (hsub hmem)

/-- A row answers for its own columns, whatever is behind it. -/
theorem lookup_own {layout : Layout} {table : Option String} {name : String} {index : Nat}
    (h : layout.find? table name = .ok (some index)) (row : Row) (a b : List Frame) :
    lookup table name (⟨layout, row⟩ :: a) = lookup table name (⟨layout, row⟩ :: b) := by
  simp only [lookup]
  cases layout.slot? (.column table name) with
  | some index => rfl
  | none =>
      rw [h]
      rfl

/-- So the rows behind it need to agree only on what it leaves open. -/
theorem AlikeBeyond.push {layout : Layout} (h : AlikeBeyond layout rs a b) (row : Row) :
    AlikeOn rs (⟨layout, row⟩ :: a) (⟨layout, row⟩ :: b) := by
  intro table name hmem
  simp only [lookup]
  cases layout.slot? (.column table name) with
  | some index => rfl
  | none =>
      cases hfind : layout.find? table name with
      | error e => rfl
      | ok place =>
          cases place with
          | some index => rfl
          | none => exact h table name hmem hfind

end Frame

/-- In a layout without places for expressions, none has one. -/
theorem Layout.slot?_eq_none {layout : Layout} (h : layout.slots = []) (e : Expr) :
    layout.slot? e = none := by
  rw [slot?, h]
  rfl

open DialectDb.Frame (AlikeBeyond)

-- =============================================================== within

def Scope.within (s : Scope) (outer : List Frame) : Scope := { s with outer }

def Source.within (source : Source) (outer : List Frame) : Source :=
  { source with scope := source.scope.within outer }

def Context.within (context : Context) (outer : List Frame) : Context := { context with outer }

@[simp] theorem Scope.within_layout (s : Scope) : (s.within outer).layout = s.layout := rfl

@[simp] theorem Scope.within_outer (s : Scope) : (s.within outer).outer = outer := rfl

@[simp] theorem Scope.within_labels (s : Scope) : (s.within outer).labels = s.labels := rfl

@[simp] theorem Source.within_scope (source : Source) :
    (source.within outer).scope = source.scope.within outer := rfl

@[simp] theorem Source.within_rows (source : Source) : (source.within outer).rows = source.rows :=
  rfl

-- =========================================================== resolution

namespace Scope

/-- What a column resolves to within other rows that agree on it if it
is left open. -/
theorem resolveColumn_within (s : Scope) (table : Option String) (name : String)
    (h : s.layout.find? table name = .ok none →
      Frame.lookup table name outer = Frame.lookup table name s.outer) :
    (s.within outer).resolveColumn table name = s.resolveColumn table name := by
  simp only [resolveColumn, within_layout, within_outer]
  cases hfind : s.layout.find? table name with
  | error e => rfl
  | ok place =>
      cases place with
      | some index => rfl
      | none =>
          show Formula.const <$> Frame.lookup table name outer = _
          rw [h hfind]
          rfl

/-- An expression with a place in the row resolves to it, whatever is
around. -/
theorem resolve_of_slot {s : Scope} {e : Expr} {index : Nat} (h : s.layout.slot? e = some index) :
    s.resolve e = .ok (.column index) := by
  cases e <;> simp only [resolve, h]

mutual

/-- An expression resolves to the same formula within rows that agree on
its references. -/
theorem resolve_within (s : Scope) : ∀ e : Expr,
    AlikeBeyond s.layout (e.references s.layout.hasSlot) outer s.outer →
      (s.within outer).resolve e = s.resolve e
  | e, h => by
    cases hslot : s.layout.slot? e with
    | some index => rw [resolve_of_slot hslot, resolve_of_slot (s := s.within outer) hslot]
    | none =>
        have hleave : s.layout.hasSlot e = false := by rw [Layout.hasSlot, hslot]; rfl
        cases e with
        | all => simp only [resolve, within_layout, hslot]
        | column table name =>
            simp only [resolve, within_layout, hslot]
            apply resolveColumn_within
            apply h
            simp [Expr.references, hleave]
        | literal value => simp only [resolve, within_layout, hslot]
        | parameter placeholder => simp only [resolve, within_layout, hslot]
        | excluded column => simp only [resolve, within_layout, hslot, lookup]
        | «exists» q => simp only [resolve, within_layout, hslot]
        | inQuery e q => simp only [resolve, within_layout, hslot]
        | call name arguments =>
            have hlist := resolveList_within s arguments (h.mono (by simp [Expr.references, hleave]))
            simp only [resolve, within_layout, hslot, hlist]
        | unary op operand =>
            have hoperand := resolve_within s operand (h.mono (by simp [Expr.references, hleave]))
            simp only [resolve, within_layout, hslot, hoperand]
        | binary op left right =>
            have hleft := resolve_within s left (h.mono (by simp [Expr.references, hleave]))
            have hright := resolve_within s right (h.mono (by simp [Expr.references, hleave]))
            simp only [resolve, within_layout, hslot, hleft, hright]
        | inList operand items =>
            have hoperand := resolve_within s operand (h.mono (by simp [Expr.references, hleave]))
            have hitems := resolveList_within s items (h.mono (by simp [Expr.references, hleave]))
            simp only [resolve, within_layout, hslot, hoperand, hitems]
termination_by structural e => e

theorem resolveList_within (s : Scope) : ∀ es : List Expr,
    AlikeBeyond s.layout (Expr.referencesOfList s.layout.hasSlot es) outer s.outer →
      (s.within outer).resolveList es = s.resolveList es
  | [], _ => rfl
  | e :: es, h => by
    have hhead := resolve_within s e (h.mono (by simp [Expr.referencesOfList]))
    have htail := resolveList_within s es (h.mono (by simp [Expr.referencesOfList]))
    simp only [resolveList, hhead, htail]
termination_by structural es => es

end

/-- It is enough that they agree on all columns that it refers to. -/
theorem resolve_within_of_columns {s : Scope} (h : AlikeBeyond s.layout rs outer s.outer)
    {e : Expr} (he : e.columns ⊆ rs) : (s.within outer).resolve e = s.resolve e :=
  resolve_within s e (h.mono (List.Subset.trans (e.references_subset_columns _) he))

end Scope

end DialectDb
