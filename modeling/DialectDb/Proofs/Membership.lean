/-
IN with a subquery, in three-valued logic. What it says of a value and
of those that the subquery returns is a chain of comparisons joined by
OR: true if one of them is, else unknown if one of them is, else false,
and so false of no values at all. An IN list has a loop of its own, which
ends at the first equal item, and a NULL before the list is answered
without it. This asks where the two agree: everywhere, but for a NULL
before a subquery that returns no rows.
-/
import DialectDb.Proofs.Partition

namespace DialectDb

theorem Result.truth?_eq_some {r : Result Value} {b : Bool} :
    truth? r = some b ↔ r = .ok (.boolean b) := by
  rcases r with _ | (_ | b' | _ | _ | _)
  all_goals simp [truth?]

-- =============================================================== chains

namespace Value

/-- `known OR w = v1 OR w = v2 OR ...`, with each comparison made. -/
def orEqual (w known : Value) (values : List Value) : Result Value :=
  values.foldlM (fun known v => do known.or (← BinaryOp.equal.apply w v)) known

/-- `w = v1 OR w = v2 OR ...`, which of no values is false. -/
def equalsAny (w : Value) (values : List Value) : Result Value :=
  w.orEqual (.boolean false) values

/-- A value can be compared with some others. -/
def ComparesWith (w : Value) (values : List Value) : Prop :=
  ∀ v ∈ values, ∃ known, BinaryOp.equal.apply w v = .ok known

variable {w v known : Value} {values : List Value}

/-- What a comparison for equality tells, from the order of the two. -/
theorem equal_of_compare {order : Option Ordering} (h : w.compare v = .ok order) :
    BinaryOp.equal.apply w v = .ok (order.elim .null fun o => .boolean (o == .eq)) := by
  show Value.test (· == .eq) w v = _
  rw [test, h, Result.ok_bind]
  cases order <;> rfl

theorem exists_compare (h : ∃ known, BinaryOp.equal.apply w v = .ok known) :
    ∃ order, w.compare v = .ok order := by
  obtain ⟨known, h⟩ := h
  obtain ⟨order, horder, -⟩ := Result.bind_eq_ok.mp (show Value.test (· == .eq) w v = _ from h)
  exact ⟨order, horder⟩

/-- OR of truth values and unknowns is one of them: true iff one of the
two is, and false iff both are. -/
theorem or_spec {a b : Value} (ha : Result.HasTruth (.ok a)) (hb : Result.HasTruth (.ok b)) :
    ∃ c, a.or b = .ok c ∧ Result.HasTruth (.ok c) ∧
      (c = .boolean true ↔ a = .boolean true ∨ b = .boolean true) ∧
      (c = .boolean false ↔ a = .boolean false ∧ b = .boolean false) := by
  obtain ha | ⟨p, ha⟩ := ha <;> obtain hb | ⟨q, hb⟩ := hb <;> cases ha <;> cases hb
  · exact ⟨.null, rfl, .inl rfl, by decide, by decide⟩
  · cases q
    · exact ⟨.null, rfl, .inl rfl, by decide, by decide⟩
    · exact ⟨.boolean true, rfl, .inr ⟨_, rfl⟩, by decide, by decide⟩
  · cases p
    · exact ⟨.null, rfl, .inl rfl, by decide, by decide⟩
    · exact ⟨.boolean true, rfl, .inr ⟨_, rfl⟩, by decide, by decide⟩
  · refine ⟨.boolean (p || q), rfl, .inr ⟨_, rfl⟩, ?_, ?_⟩
    · simp
    · simp

/-- Nothing is equal to NULL, nor different from it. -/
theorem equal_null (v : Value) : BinaryOp.equal.apply .null v = .ok .null := by
  have h : compare .null v = .ok none := by rw [compare]
  exact equal_of_compare h

theorem orEqual_nil : w.orEqual known [] = .ok known := rfl

theorem orEqual_cons {told : Value} (h : BinaryOp.equal.apply w v = .ok told) :
    w.orEqual known (v :: values) = known.or told >>= fun known => w.orEqual known values := by
  rw [orEqual, List.foldlM_cons, h]
  rfl

/-- A chain that is true stays true. -/
theorem orEqual_true (h : w.ComparesWith values) :
    w.orEqual (.boolean true) values = .ok (.boolean true) := by
  induction values with
  | nil => rfl
  | cons v rest ih =>
      obtain ⟨hfirst, hrest⟩ := List.forall_mem_cons.mp h
      obtain ⟨order, horder⟩ := exists_compare hfirst
      rw [orEqual_cons (equal_of_compare horder)]
      cases order with
      | none => exact ih hrest
      | some o => exact ih hrest

/-- The loop of an IN list is a chain that is not true yet. -/
theorem evalMembership_eq_orEqual (row : Row) (hopen : known = .boolean false ∨ known = .null)
    (h : w.ComparesWith values) :
    Formula.evalMembership row w known (values.map .const) = w.orEqual known values := by
  induction values generalizing known with
  | nil => rfl
  | cons v rest ih =>
      obtain ⟨hfirst, hrest⟩ := List.forall_mem_cons.mp h
      obtain ⟨order, horder⟩ := exists_compare hfirst
      rw [List.map_cons, Formula.evalMembership, Formula.eval, Result.ok_bind, horder,
        Result.ok_bind, orEqual_cons (equal_of_compare horder)]
      -- the loop ends where the chain becomes true
      obtain rfl | rfl := hopen
      · match order with
        | none => exact ih (.inr rfl) hrest
        | some .eq => exact (orEqual_true hrest).symm
        | some .lt => exact ih (.inl rfl) hrest
        | some .gt => exact ih (.inl rfl) hrest
      · match order with
        | none => exact ih (.inr rfl) hrest
        | some .eq => exact (orEqual_true hrest).symm
        | some .lt => exact ih (.inr rfl) hrest
        | some .gt => exact ih (.inr rfl) hrest

/-- What is so of each step of a chain is so of the chain: it has a truth
value or is unknown, it is true iff it was or a comparison is, and false
iff it was and all comparisons are. -/
theorem orEqual_spec (hknown : Result.HasTruth (.ok known)) (h : w.ComparesWith values) :
    Result.HasTruth (w.orEqual known values) ∧
      (w.orEqual known values = .ok (.boolean true) ↔ known = .boolean true ∨
        ∃ v ∈ values, BinaryOp.equal.apply w v = .ok (.boolean true)) ∧
      (w.orEqual known values = .ok (.boolean false) ↔ known = .boolean false ∧
        ∀ v ∈ values, BinaryOp.equal.apply w v = .ok (.boolean false)) := by
  induction values generalizing known with
  | nil => simp [orEqual_nil, hknown]
  | cons v rest ih =>
      obtain ⟨hfirst, hrest⟩ := List.forall_mem_cons.mp h
      obtain ⟨order, horder⟩ := exists_compare hfirst
      have htold := equal_of_compare horder
      obtain ⟨told, htold', htruth⟩ : ∃ told, BinaryOp.equal.apply w v = .ok told ∧
          Result.HasTruth (.ok told) := by
        refine ⟨_, htold, ?_⟩
        cases order with
        | none => exact .inl rfl
        | some o => exact .inr ⟨_, rfl⟩
      obtain ⟨next, hnext, hnextTruth, htrue, hfalse⟩ := or_spec hknown htruth
      obtain ⟨hchain, hchainTrue, hchainFalse⟩ := ih hnextTruth hrest
      rw [orEqual_cons htold', hnext, Result.ok_bind, List.exists_mem_cons_iff,
        List.forall_mem_cons, htold']
      refine ⟨hchain, ?_, ?_⟩
      · rw [hchainTrue, htrue, or_assoc]
        simp
      · rw [hchainFalse, hfalse, and_assoc]
        simp

/-- Whether a value is equal to some of others: true iff a comparison is,
false iff all of them are, and else unknown. -/
theorem equalsAny_spec (h : w.ComparesWith values) :
    Result.HasTruth (w.equalsAny values) ∧
      (w.equalsAny values = .ok (.boolean true) ↔
        ∃ v ∈ values, BinaryOp.equal.apply w v = .ok (.boolean true)) ∧
      (w.equalsAny values = .ok (.boolean false) ↔
        ∀ v ∈ values, BinaryOp.equal.apply w v = .ok (.boolean false)) := by
  obtain ⟨htruth, htrue, hfalse⟩ := orEqual_spec (.inr ⟨false, rfl⟩) h
  refine ⟨htruth, htrue.trans ?_, hfalse.trans (and_iff_right rfl)⟩
  exact or_iff_right (by decide)

/-- Whether NULL is equal to some of no values is known. -/
theorem equalsAny_null (values : List Value) :
    equalsAny .null values = .ok (if values = [] then .boolean false else .null) := by
  have hnull : ∀ values : List Value, orEqual .null .null values = .ok .null := by
    intro values
    induction values with
    | nil => rfl
    | cons v rest ih => rwa [orEqual_cons (equal_null v)]
  cases values with
  | nil => rfl
  | cons v rest =>
      rw [equalsAny, orEqual_cons (equal_null v)]
      exact hnull rest

/-- An IN list is the chain over its values, unless it is empty and a NULL
stands before it. -/
theorem eval_inList {row : Row} {operand : Formula} (hoperand : operand.eval row = .ok w)
    (h : w.ComparesWith values) :
    (Formula.inList operand (values.map .const)).eval row =
      if w = .null ∧ values = [] then .ok .null else w.equalsAny values := by
  rw [Formula.eval, hoperand, Result.ok_bind]
  by_cases hw : w = .null
  · rw [if_pos hw, hw, equalsAny_null]
    by_cases hvalues : values = []
    · rw [if_pos ⟨rfl, hvalues⟩]
    · rw [if_neg fun hboth => hvalues hboth.2, if_neg hvalues]
  · rw [if_neg hw, if_neg fun hboth => hw hboth.1]
    exact evalMembership_eq_orEqual row (.inl rfl) h

end Value

-- =========================================================== conditions

/-- A query returns one column, with these values. -/
def Select.Returns (q : Select) (context : Context) (values : List Value) : Prop :=
  ∃ answer rows, q.answer context = .ok answer ∧ answer.columns.length = 1 ∧
    answer.rows.collect = .ok rows ∧ values = rows.map (·.headD .null)

theorem Select.Returns.members {q : Select} {context : Context} {values : List Value}
    (h : q.Returns context values) :
    (q.answer context >>= Answer.members) = .ok (values.map .literal) := by
  obtain ⟨answer, rows, hanswer, hwidth, hrows, rfl⟩ := h
  rw [hanswer, Result.ok_bind, Answer.members, if_neg (not_not.mpr hwidth), hrows, List.map_map]
  rfl

namespace Scope

variable {s : Scope}

theorem resolveList_literals (h : s.layout.slots = []) (values : List Value) :
    s.resolveList (values.map .literal) = .ok (values.map .const) := by
  induction values with
  | nil => rfl
  | cons v rest ih =>
      rw [List.map_cons, resolveList, resolve, Layout.slot?_eq_none h]
      show s.resolveList _ >>= _ = _
      rw [ih]
      rfl

theorem resolve_inList (h : s.layout.slots = []) (e : Expr) (items : List Expr) :
    s.resolve (.inList e items) =
      s.resolve e >>= fun operand => Formula.inList operand <$> s.resolveList items := by
  rw [resolve, Layout.slot?_eq_none h]
  rfl

end Scope

namespace Expr

variable {context : Context} {s : Scope} {e : Expr} {q : Select} {row : Row} {w : Value}
  {values : List Value}

/-- IN with a subquery is the chain over the values that it returns,
unless it returns none and a NULL stands before it. -/
theorem valueFor_inQuery (hslots : s.layout.slots = [])
    (hleft : e.valueFor context s row = .ok w)
    (hvalues : q.Returns { context with outer := ⟨s.layout, row⟩ :: s.outer } values)
    (h : w.ComparesWith values) :
    (Expr.inQuery e q).valueFor context s row =
      if w = .null ∧ values = [] then .ok .null else w.equalsAny values := by
  obtain ⟨operand, hoperand, hvalue⟩ := Result.bind_eq_ok.mp hleft
  obtain ⟨left, hexpand, hresolve⟩ := Result.bind_eq_ok.mp hoperand
  rw [valueFor, formulaFor, expand, ← bind_assoc, hvalues.members, Result.ok_bind, hexpand]
  show (s.resolve _ >>= fun formula => formula.eval row) = _
  rw [Scope.resolve_inList hslots, hresolve, Result.ok_bind, Scope.resolveList_literals hslots,
    Result.map_ok, Result.ok_bind, Value.eval_inList hvalue h]

/-- The rows that WHERE selects by IN are those with an equal value in the
subquery. By NOT IN they are those whose value is known to differ from
all of them, but for a NULL before a subquery without rows. -/
theorem verdict_inQuery (hslots : s.layout.slots = [])
    (hleft : e.valueFor context s row = .ok w)
    (hvalues : q.Returns { context with outer := ⟨s.layout, row⟩ :: s.outer } values)
    (h : w.ComparesWith values) :
    ((Expr.inQuery e q).verdict context s row = some true ↔
        ∃ v ∈ values, BinaryOp.equal.apply w v = .ok (.boolean true)) ∧
      ((Expr.unary .not (.inQuery e q)).verdict context s row = some true ↔
        (∀ v ∈ values, BinaryOp.equal.apply w v = .ok (.boolean false)) ∧
          ¬(w = .null ∧ values = [])) := by
  obtain ⟨htruth, htrue, hfalse⟩ := Value.equalsAny_spec h
  rw [verdict, verdict, valueFor_unary hslots, valueFor_inQuery hslots hleft hvalues h]
  by_cases hnull : w = .null ∧ values = []
  · obtain ⟨rfl, rfl⟩ := hnull
    have hleaves : Result.truth? (.ok .null : Result Value) ≠ some true := by decide
    have hselects : Result.truth? (.ok .null >>= UnaryOp.not.apply) ≠ some true := by decide
    rw [if_pos ⟨rfl, rfl⟩]
    refine ⟨iff_of_false hleaves ?_, iff_of_false hselects fun hboth => hboth.2 ⟨rfl, rfl⟩⟩
    rintro ⟨_, hmem, -⟩
    cases hmem
  · rw [if_neg hnull, (Result.HasTruth.not htruth).2, Result.truth?_eq_some,
      Result.truth?_eq_some, and_iff_left hnull]
    exact ⟨htrue, hfalse⟩

/-- [NOT] IN with a subquery, for the row that it is evaluated for in a
WHERE clause, whose scope has no places for whole expressions. If the left
side has a value and the subquery returns values that it can be compared
with, the chain of comparisons has a truth value or is unknown, IN gives
that, and NOT IN its negation. The exception is a NULL on the left of a
subquery without rows: of that neither is known. -/
theorem in_query_three_valued (hslots : s.layout.slots = [])
    (hleft : e.valueFor context s row = .ok w)
    (hvalues : q.Returns { context with outer := ⟨s.layout, row⟩ :: s.outer } values)
    (h : w.ComparesWith values) :
    Result.HasTruth (w.equalsAny values) ∧
      ∀ negated, (Grammar.negatedIf negated (.inQuery e q)).valueFor context s row =
        if w = .null ∧ values = [] then .ok .null
        else if negated then w.equalsAny values >>= Value.not else w.equalsAny values := by
  refine ⟨(Value.equalsAny_spec h).1, fun negated => ?_⟩
  have hin := valueFor_inQuery hslots hleft hvalues h
  cases negated with
  | false => exact hin
  | true =>
      show (Expr.unary .not (.inQuery e q)).valueFor context s row = _
      rw [valueFor_unary hslots, hin]
      split <;> rfl

end Expr

namespace Membership

def idColumn : Column := ⟨"id", .integer, true, false, none, false⟩

def textColumn (name : String) : Column := ⟨name, .string, false, true, some .null, false⟩

/-- Three users, one of them without a name, and some orders. -/
def shop (orders : List Row) : Store where
  entries := [
    ⟨"orders", ⟨⟨"orders", [idColumn, textColumn "customer"]⟩, orders⟩⟩,
    ⟨"users", ⟨⟨"users", [idColumn, textColumn "name"]⟩,
      [[.integer 1, .string "ann"], [.integer 2, .string "eve"], [.integer 3, .null]]⟩⟩]

/-- `SELECT customer FROM orders` -/
def customers : Select :=
  { Select.allWhere "orders" none with columns := [⟨.column none "customer", none⟩] }

/-- The columns of users. -/
def users : Scope := .ofColumns "users" ["id", "name"]

/-- Of a customer without a name it is unknown whether that is Eve. -/
theorem eve_in_customers :
    let store := shop [[.integer 1, .string "ann"], [.integer 2, .null]]
    let row := [.integer 2, .string "eve"]
    users.layout.slots = [] ∧
      (Expr.column none "name").valueFor { store } users row = .ok (.string "eve") ∧
      customers.Returns { store, outer := [⟨users.layout, row⟩] } [.string "ann", .null] ∧
      (Value.string "eve").ComparesWith [.string "ann", .null] ∧
      ∀ negated, (Grammar.negatedIf negated (.inQuery (.column none "name") customers)).valueFor
        { store } users row = .ok .null := by
  intro store row
  have hleft : (Expr.column none "name").valueFor { store } users row = .ok (.string "eve") := by
    rfl
  have hvalues : customers.Returns { store, outer := [⟨users.layout, row⟩] }
      [.string "ann", .null] := ⟨_, _, rfl, rfl, rfl, rfl⟩
  have hcompares : (Value.string "eve").ComparesWith [.string "ann", .null] :=
    List.forall_mem_cons.mpr ⟨⟨_, rfl⟩, List.forall_mem_singleton.mpr ⟨_, rfl⟩⟩
  refine ⟨rfl, hleft, hvalues, hcompares, fun negated => ?_⟩
  have hthree := (Expr.in_query_three_valued rfl hleft hvalues hcompares).2 negated
  cases negated with
  | false => exact hthree.trans (by rfl)
  | true => exact hthree.trans (by rfl)

/-- Without orders, it is known of each user that no order is theirs. The
user without a name is missed all the same. -/
theorem nameless_not_in_customers :
    let store := shop []
    let row := [.integer 3, .null]
    let notIn := Grammar.negatedIf true (.inQuery (.column none "name") customers)
    users.layout.slots = [] ∧
      (Expr.column none "name").valueFor { store } users row = .ok .null ∧
      customers.Returns { store, outer := [⟨users.layout, row⟩] } [] ∧
      Value.ComparesWith .null [] ∧
      (Value.equalsAny .null [] >>= Value.not) = .ok (.boolean true) ∧
      notIn.valueFor { store } users row = .ok .null ∧
      (Select.allWhere "users" (some notIn)).readAll ⟨.postgreSql, 16⟩ store =
        .ok (["id", "name"], [[.integer 1, .string "ann"], [.integer 2, .string "eve"]]) :=
  ⟨rfl, by rfl, ⟨_, _, rfl, rfl, rfl, rfl⟩, List.forall_mem_nil _, rfl, by rfl, by rfl⟩

end Membership

end DialectDb
