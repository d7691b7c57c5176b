/-
Formulas and the rows that they are evaluated on. A formula is within a
width if every place that it looks at is, and on a row of that width it
fails only for what values are. What is resolved in a scope is within the
width of the scope, as long as the expressions that have places have them
there, and the rows around are as wide as their own layouts.
-/
import DialectDb.Proofs.Failures
import DialectDb.Proofs.Grouping

namespace DialectDb

-- ============================================================= formulas

namespace Formula

mutual

/-- Every place that the formula looks at is one of the first `width`. -/
def Within (width : Nat) : Formula → Prop
  | .const _ => True
  | .column index => index < width
  | .unary _ e => e.Within width
  | .binary _ l r => l.Within width ∧ r.Within width
  | .inList e items => e.Within width ∧ WithinList width items
  | .likePattern e _ => e.Within width
  | .call _ arguments => WithinList width arguments
termination_by structural e => e

def WithinList (width : Nat) : List Formula → Prop
  | [] => True
  | e :: es => e.Within width ∧ WithinList width es
termination_by structural es => es

end

theorem withinList_iff {width : Nat} {es : List Formula} :
    WithinList width es ↔ ∀ e ∈ es, e.Within width := by
  induction es with
  | nil => exact iff_of_true trivial fun _ h => absurd h List.not_mem_nil
  | cons e es ih => rw [WithinList, ih, List.forall_mem_cons]

variable {row : Row}

mutual

/-- On a row that has all its places, a formula fails only for what the
values are. -/
theorem onValues_eval : ∀ e : Formula, e.Within row.length → OnValues (e.eval row)
  | .const _, _ => .ok _
  | .column index, h => by
    rw [eval, List.getElem?_eq_getElem h]
    exact .ok _
  | .unary op e, h => .bind (onValues_eval e h) fun _ _ _ => (op.onRow_apply _).onValues
  | .binary op l r, h =>
    .bind (onValues_eval l h.1) fun _ _ _ =>
      .bind (onValues_eval r h.2) fun _ _ _ => (op.onRow_apply _ _).onValues
  | .inList e items, h =>
    .bind (onValues_eval e h.1) fun _ _ _ =>
      .ite (fun _ => .ok _) fun _ => onValues_evalMembership _ _ items h.2
  | .likePattern e _, h =>
    .bind (onValues_eval e h) fun _ _ _ => (Value.onRow_likePattern _ _).onValues
  | .call function arguments, h =>
    .bind (onValues_evalList arguments h) fun _ _ _ => (function.onRow_apply _).onValues
termination_by structural e => e

theorem onValues_evalList :
    ∀ es : List Formula, WithinList row.length es → OnValues (evalList row es)
  | [], _ => .ok _
  | e :: es, h =>
    .bind (onValues_eval e h.1) fun _ _ _ => .bind (onValues_evalList es h.2) fun _ _ _ => .ok _
termination_by structural es => es

theorem onValues_evalMembership (value otherwise : Value) :
    ∀ items : List Formula, WithinList row.length items →
      OnValues (evalMembership row value otherwise items)
  | [], _ => .ok _
  | e :: es, h => by
    refine .bind (onValues_eval e h.1) fun item _ _ => ?_
    refine .bind (Value.onRow_compare value item).onValues fun ordering _ _ => ?_
    split
    · exact .ok _
    · exact onValues_evalMembership value otherwise es h.2
    · exact onValues_evalMembership value .null es h.2
termination_by structural items => items

end

theorem onValues_holds {condition : Option Formula} (h : ∀ e ∈ condition, e.Within row.length) :
    OnValues (holds condition row) := by
  cases condition with
  | none => exact .ok _
  | some e =>
      refine .bind (onValues_eval e (h e rfl)) fun value _ _ => ?_
      split <;> first | exact .ok _ | exact .fail trivial

end Formula

-- =============================================================== scopes

/-- The expressions that have places have them among the columns. -/
def Layout.Placed (layout : Layout) : Prop :=
  ∀ slot ∈ layout.slots, slot.index < layout.labels.length

/-- A row around a subquery is as wide as its layout. -/
structure Frame.Sound (frame : Frame) : Prop where
  placed : frame.layout.Placed
  width : frame.row.length = frame.layout.labels.length

structure Scope.Sound (s : Scope) : Prop where
  placed : s.layout.Placed
  outer : ∀ frame ∈ s.outer, frame.Sound

theorem Layout.placed_of_slots {layout : Layout} (h : layout.slots = []) : layout.Placed := by
  intro slot hslot
  rw [h] at hslot
  cases hslot

theorem Layout.Placed.slot?_lt {layout : Layout} (h : layout.Placed) {e : Expr} {index : Nat}
    (hslot : layout.slot? e = some index) : index < layout.labels.length := by
  obtain ⟨slot, hfind, rfl⟩ := Option.map_eq_some_iff.mp hslot
  exact h slot (List.mem_of_find?_eq_some hfind)

theorem Layout.placeSafe_find? (layout : Layout) (table : Option String) (name : String) :
    PlaceSafe (layout.find? table name) := by
  unfold find?
  split
  · exact .ok _
  · exact .ok _
  · exact .fail trivial

/-- A column is looked up in rows around that have it. -/
theorem Frame.placeSafe_lookup (table : Option String) (name : String) {frames : List Frame}
    (h : ∀ frame ∈ frames, frame.Sound) : PlaceSafe (lookup table name frames) := by
  have heval {frame : Frame} (hframe : frame.Sound) {index : Nat}
      (hindex : index < frame.layout.labels.length) :
      PlaceSafe ((Formula.column index).eval frame.row) :=
    OnValues.placeSafe (Formula.onValues_eval (.column index) (hframe.width.symm ▸ hindex))
  induction frames with
  | nil => exact .fail trivial
  | cons frame rest ih =>
      obtain ⟨hframe, hrest⟩ := List.forall_mem_cons.mp h
      unfold lookup
      split
      · next index hslot => exact heval hframe (hframe.placed.slot?_lt hslot)
      · refine .bind (frame.layout.placeSafe_find? table name) fun place hfind _ => ?_
        cases place with
        | some index => exact heval hframe (Layout.find?_lt hfind)
        | none => exact ih hrest

namespace Scope

variable {s : Scope}

theorem resolveColumn_yields (h : s.Sound) (table : Option String) (name : String) :
    Yields Error.NoPlace (Formula.Within s.width) (s.resolveColumn table name) := by
  refine .bind (s.layout.placeSafe_find? table name) fun place hfind _ => ?_
  cases place with
  | some index => exact .pure (Layout.find?_lt hfind)
  | none => exact .map (Frame.placeSafe_lookup table name h.outer) fun _ _ => trivial

theorem lookup_yields (s : Scope) (table : Option String) (name : String) :
    Yields Error.NoPlace (· < s.width) (s.lookup table name) := by
  refine .bind (s.layout.placeSafe_find? table name) fun place hfind _ => ?_
  cases place with
  | some index => exact .pure (Layout.find?_lt hfind)
  | none => exact .fail trivial

theorem binaryFormula_yields (op : BinaryOp) {width : Nat} {l r : Formula} (hl : l.Within width)
    (hr : r.Within width) :
    Yields Error.NoPlace (Formula.Within width) (binaryFormula op l r) := by
  refine .ite (fun _ => ?_) fun _ => .pure ⟨hl, hr⟩
  unfold Formula.like
  split
  · exact .bind (Value.onRow_ofText _).onValues.placeSafe fun _ _ _ => .pure hl
  · exact .pure ⟨hl, hr⟩

mutual

/-- What is resolved looks only at places that the scope has. -/
theorem resolve_yields : ∀ e : Expr, s.Sound →
    Yields Error.NoPlace (Formula.Within s.width) (s.resolve e)
  | e, h => by
    cases hslot : s.layout.slot? e with
    | some index =>
        rw [resolve_of_slot hslot]
        exact .pure (h.placed.slot?_lt hslot)
    | none =>
        cases e with
        | column table name =>
            simp only [resolve, hslot]
            exact resolveColumn_yields h table name
        | literal value =>
            simp only [resolve, hslot]
            exact .pure trivial
        | excluded column =>
            simp only [resolve, hslot]
            exact .map (s.lookup_yields _ _) fun _ hindex => hindex
        | call name arguments =>
            simp only [resolve, hslot]
            refine .ite (fun _ => .fail trivial) fun _ => ?_
            refine .bind (Function.onRow_lookup _ _).onValues.placeSafe fun function _ _ => ?_
            exact .bind (resolveList_yields arguments h) fun _ _ hfs => .pure hfs
        | unary op operand =>
            simp only [resolve, hslot]
            exact .bind (resolve_yields operand h) fun _ _ hf => .pure hf
        | binary op left right =>
            simp only [resolve, hslot]
            refine .bind (resolve_yields left h) fun _ _ hl => ?_
            exact .bind (resolve_yields right h) fun _ _ hr => binaryFormula_yields op hl hr
        | inList operand items =>
            simp only [resolve, hslot]
            refine .bind (resolve_yields operand h) fun _ _ hf => ?_
            exact .bind (resolveList_yields items h) fun _ _ hfs => .pure ⟨hf, hfs⟩
        | _ =>
            simp only [resolve, hslot]
            exact .fail trivial
termination_by structural e => e

theorem resolveList_yields : ∀ es : List Expr, s.Sound →
    Yields Error.NoPlace (Formula.WithinList s.width) (s.resolveList es)
  | [], _ => .pure trivial
  | e :: es, h => by
    refine .bind (resolve_yields e h) fun _ _ hf => ?_
    exact .bind (resolveList_yields es h) fun _ _ hfs => .pure ⟨hf, hfs⟩
termination_by structural es => es

end

theorem sound_empty : Scope.empty.Sound :=
  ⟨Layout.placed_of_slots rfl, fun _ hframe => absurd hframe List.not_mem_nil⟩

theorem sound_ofColumns (table : String) (columns : List String) :
    (ofColumns table columns).Sound :=
  ⟨Layout.placed_of_slots rfl, fun _ hframe => absurd hframe List.not_mem_nil⟩

theorem merge_yields (h : s.Sound) (other : Scope) :
    Yields Error.NoPlace Scope.Sound (s.merge other) := by
  unfold merge
  split
  · exact .fail trivial
  · refine .pure ⟨fun slot hslot => ?_, h.outer⟩
    rw [List.length_append]
    exact Nat.lt_add_right _ (h.placed slot hslot)

end Scope

end DialectDb
