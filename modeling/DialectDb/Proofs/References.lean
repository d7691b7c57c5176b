/-
The columns that expressions and queries refer to. Resolving an
expression looks at its nodes, so `columns` is what it can ask a scope
for; `references` leaves out parts that are known as a whole. A query
also asks for what its subqueries refer to, in WHERE, and its branches;
`mentions` is all of that.
-/
import DialectDb.Query
import DialectDb.Proofs.Nodes
import DialectDb.Proofs.Result

namespace DialectDb

/-- A reference to a column: its table, if it has one, and its name. -/
abbrev Reference := Option String × String

variable {table : Option String} {name : String}

namespace Expr

-- ============================================================== columns

def reference? : Expr → Option Reference
  | .column table name => some (table, name)
  | _ => none

theorem reference?_eq_some {e : Expr} :
    e.reference? = some (table, name) ↔ e = .column table name := by
  cases e <;> simp [reference?]

/-- The columns that an expression refers to outside of its
subqueries. -/
def columns (e : Expr) : List Reference :=
  e.nodes.filterMap reference?

theorem mem_columns {e : Expr} : (table, name) ∈ e.columns ↔ .column table name ∈ e.nodes := by
  rw [columns, List.mem_filterMap]
  constructor
  · rintro ⟨node, hnode, href⟩
    rwa [← reference?_eq_some.mp href]
  · intro h
    exact ⟨_, h, rfl⟩

theorem columns_subset_of_mem_nodes {node e : Expr} (h : node ∈ e.nodes) :
    node.columns ⊆ e.columns :=
  List.filterMap_subset _ (nodes_subset h)

-- ========================================================== references

mutual

/-- The columns that an expression refers to outside of its subqueries
and of the parts that are left out. -/
def references (leave : Expr → Bool) (e : Expr) : List Reference :=
  if leave e then []
  else
    match e with
    | .column table name => [(table, name)]
    | .call _ arguments => referencesOfList leave arguments
    | .unary _ e => e.references leave
    | .binary _ l r => l.references leave ++ r.references leave
    | .inList e items => e.references leave ++ referencesOfList leave items
    | .inQuery e _ => e.references leave
    | _ => []
termination_by structural e

def referencesOfList (leave : Expr → Bool) (es : List Expr) : List Reference :=
  match es with
  | [] => []
  | e :: es => e.references leave ++ referencesOfList leave es
termination_by structural es

end

theorem referencesOfList_eq (leave : Expr → Bool) (es : List Expr) :
    referencesOfList leave es = es.flatMap (references leave) := by
  induction es with
  | nil => rfl
  | cons e es ih => rw [referencesOfList, ih, List.flatMap_cons]

/-- What an expression refers to is itself, if it is a column, and what
its operands refer to. -/
theorem references_eq {leave : Expr → Bool} {e : Expr} (h : leave e = false) :
    e.references leave = e.reference?.toList ++ e.operands.flatMap (references leave) := by
  cases e <;> simp [references, operands, reference?, referencesOfList_eq, h]

theorem references_of_leave {leave : Expr → Bool} {e : Expr} (h : leave e = true) :
    e.references leave = [] := by
  cases e <;> simp [references, h]

/-- What is left out makes a difference only among the nodes of an
expression. -/
theorem references_congr {leave leave' : Expr → Bool} {e : Expr}
    (h : ∀ node ∈ e.nodes, leave node = leave' node) :
    e.references leave = e.references leave' := by
  induction e using operands_induction with
  | step e ih =>
      have hself := h e (mem_nodes_self e)
      cases hleave : leave' e with
      | true => rw [references_of_leave (hself.trans hleave), references_of_leave hleave]
      | false =>
          rw [references_eq (hself.trans hleave), references_eq hleave]
          congr 1
          refine List.flatMap_congr fun o ho => ih o ho fun node hnode => ?_
          exact h node (mem_nodes_of_operand ho hnode)

/-- The references are columns among the nodes that are not left out. -/
theorem node_of_mem_references {leave : Expr → Bool} {e : Expr}
    (h : (table, name) ∈ e.references leave) :
    .column table name ∈ e.nodes ∧ leave (.column table name) = false := by
  induction e using operands_induction with
  | step e ih =>
      cases hleave : leave e with
      | true =>
          rw [references_of_leave hleave] at h
          cases h
      | false =>
          rw [references_eq hleave] at h
          rcases List.mem_append.mp h with h | h
          · obtain rfl := reference?_eq_some.mp (Option.mem_toList.mp h)
            exact ⟨mem_nodes_self _, hleave⟩
          · obtain ⟨o, ho, h⟩ := List.mem_flatMap.mp h
            exact (ih o ho h).imp_left (mem_nodes_of_operand ho)

theorem references_subset_columns (leave : Expr → Bool) (e : Expr) :
    e.references leave ⊆ e.columns :=
  fun _ h => mem_columns.mpr (node_of_mem_references h).1

-- ========================================================== subqueries

theorem withoutSubqueriesList_eq (es : List Expr) :
    withoutSubqueriesList es = es.map withoutSubqueries := by
  induction es with
  | nil => rfl
  | cons e es ih => rw [withoutSubqueriesList, ih, List.map_cons]

theorem operands_withoutSubqueries (e : Expr) :
    e.withoutSubqueries.operands = e.operands.map withoutSubqueries := by
  cases e <;> simp [withoutSubqueries, operands, withoutSubqueriesList_eq]

/-- Without subqueries there is nothing to leave out. -/
theorem withoutSubqueries_eq_self {e : Expr} (h : e.containsSubquery = false) :
    e.withoutSubqueries = e := by
  induction e using operands_induction with
  | step e ih =>
      have hoperands : ∀ o ∈ e.operands, o.withoutSubqueries = o := by
        refine fun o ho => ih o ho (List.any_eq_false.mpr fun node hnode => ?_)
        exact List.any_eq_false.mp h node (mem_nodes_of_operand ho hnode)
      have hself : e.isSubquery = false :=
        Bool.eq_false_iff.mpr (List.any_eq_false.mp h e (mem_nodes_self e))
      have hlist : ∀ es : List Expr, (∀ o ∈ es, o ∈ e.operands) →
          withoutSubqueriesList es = es := by
        intro es hes
        rw [withoutSubqueriesList_eq]
        exact (List.map_congr_left fun o ho => hoperands o (hes o ho)).trans (List.map_id' es)
      cases e with
      | «exists» q => cases hself
      | inQuery e q => cases hself
      | call f arguments => rw [withoutSubqueries, hlist arguments fun _ => id]
      | unary op e => rw [withoutSubqueries, hoperands e List.mem_cons_self]
      | binary op l r =>
          rw [withoutSubqueries, hoperands l List.mem_cons_self,
            hoperands r (List.mem_cons_of_mem l List.mem_cons_self)]
      | inList e items =>
          rw [withoutSubqueries, hoperands e List.mem_cons_self,
            hlist items fun _ => List.mem_cons_of_mem e]
      | _ => rfl

theorem eq_column_of_withoutSubqueries {e : Expr} (h : .column table name = e.withoutSubqueries) :
    e = .column table name := by
  cases e <;> simp_all [withoutSubqueries]

/-- Without its subqueries, an expression refers to no other columns. -/
theorem column_of_withoutSubqueries {e : Expr}
    (h : .column table name ∈ e.withoutSubqueries.nodes) : .column table name ∈ e.nodes := by
  induction e using operands_induction with
  | step e ih =>
      rcases mem_nodes.mp h with h | ⟨o, ho, h⟩
      · rw [eq_column_of_withoutSubqueries h]
        exact mem_nodes_self _
      · obtain ⟨p, hp, rfl⟩ := List.mem_map.mp (operands_withoutSubqueries e ▸ ho)
        exact mem_nodes_of_operand hp (ih p hp h)

theorem columns_withoutSubqueries_subset (e : Expr) : e.withoutSubqueries.columns ⊆ e.columns :=
  fun _ h => mem_columns.mpr (column_of_withoutSubqueries (mem_columns.mp h))

/-- EXISTS becomes a literal. -/
theorem literal_of_existence {answer : Answer} {e : Expr} (h : answer.existence = .ok e) :
    ∃ value, e = .literal value := by
  unfold Answer.existence at h
  split at h
  · cases h
    exact ⟨_, rfl⟩
  · obtain ⟨row, -, h⟩ := Result.bind_eq_ok.mp h
    cases h
    exact ⟨_, rfl⟩

/-- The list that IN compares with is one of literals. -/
theorem literal_of_members {answer : Answer} {items : List Expr} (h : answer.members = .ok items) :
    ∀ item ∈ items, ∃ value, item = .literal value := by
  unfold Answer.members at h
  split at h
  · cases h
  · obtain ⟨rows, -, h⟩ := Result.bind_eq_ok.mp h
    cases h
    intro item hitem
    obtain ⟨row, -, rfl⟩ := List.mem_map.mp hitem
    exact ⟨_, rfl⟩

theorem expandList_eq (context : Context) (es : List Expr) :
    expandList context es = es.mapM (expand context) := by
  induction es with
  | nil => rfl
  | cons e es ih => rw [expandList, ih, List.mapM_cons]

/-- Without subqueries there is nothing to replace. -/
theorem expand_eq_self {e : Expr} (h : e.containsSubquery = false) (context : Context) :
    e.expand context = .ok e := by
  induction e using operands_induction with
  | step e ih =>
      have hoperands : ∀ o ∈ e.operands, o.expand context = .ok o := by
        refine fun o ho => ih o ho (List.any_eq_false.mpr fun node hnode => ?_)
        exact List.any_eq_false.mp h node (mem_nodes_of_operand ho hnode)
      have hself : e.isSubquery = false :=
        Bool.eq_false_iff.mpr (List.any_eq_false.mp h e (mem_nodes_self e))
      have hlist : ∀ es : List Expr, (∀ o ∈ es, o ∈ e.operands) → expandList context es = .ok es := by
        intro es hes
        rw [expandList_eq, Result.mapM_eq_ok]
        exact List.forall₂_same.mpr fun o ho => hoperands o (hes o ho)
      cases e with
      | «exists» q => cases hself
      | inQuery e q => cases hself
      | call f arguments =>
          rw [expand, hlist arguments fun _ => id]
          rfl
      | unary op e =>
          rw [expand, hoperands e List.mem_cons_self]
          rfl
      | binary op l r =>
          rw [expand, hoperands l List.mem_cons_self,
            hoperands r (List.mem_cons_of_mem l List.mem_cons_self)]
          rfl
      | inList e items =>
          rw [expand, hoperands e List.mem_cons_self, hlist items fun _ => List.mem_cons_of_mem e]
          rfl
      | _ => rfl

/-- The operands of an expression with the results of its subqueries are
those of the expression with theirs, and literals for the results. -/
theorem operand_of_expand {context : Context} {e expanded o : Expr}
    (h : e.expand context = .ok expanded) (ho : o ∈ expanded.operands) :
    (∃ value, o = .literal value) ∨ ∃ p ∈ e.operands, p.expand context = .ok o := by
  cases e with
  | «exists» q =>
      obtain ⟨answer, -, h⟩ := Result.bind_eq_ok.mp h
      obtain ⟨value, rfl⟩ := literal_of_existence h
      cases ho
  | inQuery e q =>
      obtain ⟨answer, -, h⟩ := Result.bind_eq_ok.mp h
      obtain ⟨items, hitems, h⟩ := Result.bind_eq_ok.mp h
      obtain ⟨operand, hoperand, h⟩ := Result.bind_eq_ok.mp h
      cases h
      rcases List.mem_cons.mp ho with rfl | ho
      · exact .inr ⟨e, List.mem_singleton_self e, hoperand⟩
      · exact .inl (literal_of_members hitems o ho)
  | call f arguments =>
      obtain ⟨expanded, harguments, h⟩ := Result.bind_eq_ok.mp h
      cases h
      rw [expandList_eq] at harguments
      exact .inr ((Result.mem_mapM harguments).mp ho)
  | unary op e =>
      obtain ⟨operand, hoperand, h⟩ := Result.bind_eq_ok.mp h
      cases h
      cases List.mem_singleton.mp ho
      exact .inr ⟨e, List.mem_singleton_self e, hoperand⟩
  | binary op l r =>
      obtain ⟨left, hleft, h⟩ := Result.bind_eq_ok.mp h
      obtain ⟨right, hright, h⟩ := Result.bind_eq_ok.mp h
      cases h
      rcases List.mem_pair.mp ho with rfl | rfl
      · exact .inr ⟨l, List.mem_cons_self, hleft⟩
      · exact .inr ⟨r, List.mem_cons_of_mem l (List.mem_singleton_self r), hright⟩
  | inList e items =>
      obtain ⟨operand, hoperand, h⟩ := Result.bind_eq_ok.mp h
      obtain ⟨expanded, hitems, h⟩ := Result.bind_eq_ok.mp h
      cases h
      rw [expandList_eq] at hitems
      rcases List.mem_cons.mp ho with rfl | ho
      · exact .inr ⟨e, List.mem_cons_self, hoperand⟩
      · obtain ⟨item, hitem, hexpand⟩ := (Result.mem_mapM hitems).mp ho
        exact .inr ⟨item, List.mem_cons_of_mem e hitem, hexpand⟩
  | _ =>
      cases h
      cases ho

/-- A column of a table, or of the row that is to be inserted. -/
def isColumn : Expr → Bool
  | .column _ _ | .excluded _ => true
  | _ => false

theorem withoutSubqueries_of_isColumn {e : Expr} (h : e.isColumn = true) :
    e.withoutSubqueries = e := by
  cases e <;> first | rfl | cases h

/-- No result of a subquery is a column. -/
theorem eq_of_expand_isColumn {context : Context} {e expanded : Expr}
    (h : e.expand context = .ok expanded) (hcolumn : expanded.isColumn = true) :
    e = expanded := by
  cases e with
  | «exists» q =>
      obtain ⟨answer, -, h⟩ := Result.bind_eq_ok.mp h
      obtain ⟨value, rfl⟩ := literal_of_existence h
      cases hcolumn
  | inQuery e q =>
      obtain ⟨_, -, h⟩ := Result.bind_eq_ok.mp h
      obtain ⟨_, -, h⟩ := Result.bind_eq_ok.mp h
      obtain ⟨_, -, h⟩ := Result.bind_eq_ok.mp h
      cases h
      cases hcolumn
  | call f arguments =>
      obtain ⟨_, -, h⟩ := Result.bind_eq_ok.mp h
      cases h
      cases hcolumn
  | unary op e =>
      obtain ⟨_, -, h⟩ := Result.bind_eq_ok.mp h
      cases h
      cases hcolumn
  | binary op l r =>
      obtain ⟨_, -, h⟩ := Result.bind_eq_ok.mp h
      obtain ⟨_, -, h⟩ := Result.bind_eq_ok.mp h
      cases h
      cases hcolumn
  | inList e items =>
      obtain ⟨_, -, h⟩ := Result.bind_eq_ok.mp h
      obtain ⟨_, -, h⟩ := Result.bind_eq_ok.mp h
      cases h
      cases hcolumn
  | _ => exact Except.ok.inj h

/-- With the results of its subqueries in their place, an expression
refers to no other columns. -/
theorem column_of_expand {context : Context} {e expanded : Expr}
    (hexpand : e.expand context = .ok expanded) (h : .column table name ∈ expanded.nodes) :
    .column table name ∈ e.nodes := by
  induction e using operands_induction generalizing expanded with
  | step e ih =>
      rcases mem_nodes.mp h with rfl | ⟨o, ho, h⟩
      · rw [eq_of_expand_isColumn hexpand rfl]
        exact mem_nodes_self _
      · rcases operand_of_expand hexpand ho with ⟨value, rfl⟩ | ⟨p, hp, hoperand⟩
        · cases List.mem_singleton.mp h
        · exact mem_nodes_of_operand hp (ih p hp hoperand h)

end Expr

-- ============================================================= mentions

mutual

/-- The columns that an expression refers to, in its subqueries too. -/
def Expr.mentions : Expr → List Reference
  | .column table name => [(table, name)]
  | .call _ arguments => Expr.mentionsOfList arguments
  | .unary _ e => e.mentions
  | .binary _ l r => l.mentions ++ r.mentions
  | .inList e items => e.mentions ++ Expr.mentionsOfList items
  | .inQuery e q => e.mentions ++ q.mentions
  | .exists q => q.mentions
  | _ => []
termination_by structural e => e

def Expr.mentionsOfList : List Expr → List Reference
  | [] => []
  | e :: es => e.mentions ++ Expr.mentionsOfList es
termination_by structural es => es

def Expr.mentionsOfOption : Option Expr → List Reference
  | none => []
  | some e => e.mentions
termination_by structural e => e

/-- The columns that a query refers to, in the subqueries of its WHERE
clause and in its UNION branches too. There are no subqueries
elsewhere. -/
def Select.mentions : Select → List Reference
  | ⟨_, _, columns, _, joins, predicate, groupBy, having, unions, orderBy, _, _, _⟩ =>
    Expr.mentionsOfOption predicate ++
      (joins.filterMap (·.predicate) ++ columns.map (·.expr) ++ groupBy ++ having.toList ++
        orderBy.map (·.expr)).flatMap Expr.columns ++
      UnionBranch.mentionsOfList unions
termination_by structural q => q

def UnionBranch.mentionsOfList : List UnionBranch → List Reference
  | [] => []
  | ⟨_, q⟩ :: rest => q.mentions ++ UnionBranch.mentionsOfList rest
termination_by structural branches => branches

end

theorem Expr.mentionsOfList_eq (es : List Expr) :
    Expr.mentionsOfList es = es.flatMap Expr.mentions := by
  induction es with
  | nil => rfl
  | cons e es ih => rw [Expr.mentionsOfList, ih, List.flatMap_cons]

theorem Expr.operands_mentions (e : Expr) : e.operands.flatMap Expr.mentions ⊆ e.mentions := by
  cases e <;> simp [Expr.operands, Expr.mentions, Expr.mentionsOfList_eq]

theorem Expr.mem_mentions {e : Expr} (h : .column table name ∈ e.nodes) :
    (table, name) ∈ e.mentions := by
  induction e using Expr.operands_induction with
  | step e ih =>
      rcases Expr.mem_nodes.mp h with rfl | ⟨o, ho, h⟩
      · exact List.mem_singleton_self _
      · exact Expr.operands_mentions e (List.mem_flatMap.mpr ⟨o, ho, ih o ho h⟩)

theorem Expr.columns_subset_mentions (e : Expr) : e.columns ⊆ e.mentions :=
  fun _ h => Expr.mem_mentions (Expr.mem_columns.mp h)

namespace Select

/-- The expressions of a query outside of WHERE that can refer to
columns. -/
def plainExprs (q : Select) : List Expr :=
  q.joins.filterMap (·.predicate) ++ q.columns.map (·.expr) ++ q.groupBy ++ q.having.toList ++
    q.orderBy.map (·.expr)

theorem mentions_eq (q : Select) :
    q.mentions = Expr.mentionsOfOption q.predicate ++ q.plainExprs.flatMap Expr.columns ++
      UnionBranch.mentionsOfList q.unions := by
  cases q
  rfl

theorem predicate_subset_mentions (q : Select) :
    Expr.mentionsOfOption q.predicate ⊆ q.mentions := by
  rw [mentions_eq, List.append_assoc]
  exact List.subset_append_left _ _

theorem plain_subset_mentions {q : Select} {e : Expr} (he : e ∈ q.plainExprs) :
    e.columns ⊆ q.mentions := by
  intro r hr
  rw [mentions_eq]
  exact List.mem_append_left _ (List.mem_append_right _ (List.mem_flatMap.mpr ⟨e, he, hr⟩))

end Select

end DialectDb
