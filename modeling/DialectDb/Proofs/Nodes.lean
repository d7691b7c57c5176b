/-
Expressions as trees. A node has operands, and the nodes of an
expression are the expression itself and the nodes of its operands. What
is proved of an expression from what holds of its operands is proved by
`operands_induction`, with a single step for all kinds of nodes.
-/
import DialectDb.Expr.Nodes

namespace DialectDb.Expr

theorem sizeOf_operand_lt {o e : Expr} (h : o ∈ e.operands) : sizeOf o < sizeOf e := by
  cases e <;> simp only [operands, List.mem_cons, List.not_mem_nil, or_false] at h
  case call f arguments =>
    have hlt := List.sizeOf_lt_of_mem h
    simp only [call.sizeOf_spec]
    omega
  case unary op operand =>
    subst h
    simp only [unary.sizeOf_spec]
    omega
  case binary op l r =>
    rcases h with rfl | rfl <;> (simp only [binary.sizeOf_spec]; omega)
  case inList operand items =>
    simp only [inList.sizeOf_spec]
    rcases h with rfl | h
    · omega
    · have hlt := List.sizeOf_lt_of_mem h
      omega
  case inQuery operand q =>
    subst h
    simp only [inQuery.sizeOf_spec]
    omega

/-- What holds of an expression whenever it does of its operands holds
of every expression. -/
@[elab_as_elim]
theorem operands_induction {motive : Expr → Prop} (e : Expr)
    (step : ∀ e, (∀ o ∈ e.operands, motive o) → motive e) : motive e :=
  step e fun o ho =>
    have := sizeOf_operand_lt ho
    operands_induction o step
termination_by sizeOf e

-- =============================================================== nodes

theorem nodesOfList_eq (es : List Expr) : nodesOfList es = es.flatMap nodes := by
  induction es with
  | nil => rfl
  | cons e es ih => rw [nodesOfList, ih, List.flatMap_cons]

theorem nodes_eq (e : Expr) : e.nodes = e :: e.operands.flatMap nodes := by
  cases e <;> simp [nodes, operands, nodesOfList_eq]

theorem mem_nodes {node e : Expr} :
    node ∈ e.nodes ↔ node = e ∨ ∃ o ∈ e.operands, node ∈ o.nodes := by
  rw [nodes_eq, List.mem_cons, List.mem_flatMap]

theorem mem_nodes_self (e : Expr) : e ∈ e.nodes :=
  mem_nodes.mpr (.inl rfl)

theorem mem_nodes_of_operand {node o e : Expr} (ho : o ∈ e.operands) (h : node ∈ o.nodes) :
    node ∈ e.nodes :=
  mem_nodes.mpr (.inr ⟨o, ho, h⟩)

/-- The nodes of a node are nodes. -/
theorem nodes_subset {node e : Expr} (h : node ∈ e.nodes) : node.nodes ⊆ e.nodes := by
  induction e using operands_induction with
  | step e ih =>
      rcases mem_nodes.mp h with rfl | ⟨o, ho, hnode⟩
      · exact List.Subset.refl _
      · exact fun _ hbelow => mem_nodes_of_operand ho (ih o ho hnode hbelow)

end DialectDb.Expr
