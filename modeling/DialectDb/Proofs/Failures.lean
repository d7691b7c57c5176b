/-
How computations fail. Two kinds of failures come from how rows are laid
out: those for a name or a number of columns, and those for a place that
a row does not have. A third kind comes from statements that no text is
read as. What is done on values alone fails for none of these.
`Yields` says in which ways a computation can fail, together with what it
gives otherwise.
-/
import DialectDb.Rows.Grouped
import DialectDb.Value.Storage
import DialectDb.Proofs.JoinedRows

namespace DialectDb

-- ============================================================= failures

/-- A failure, but not for a place that a row does not have. -/
def Error.NoPlace : Error → Prop
  | .invalid (.columnOutOfBounds _) => False
  | _ => True

/-- A failure, but not for a name or a number of columns. -/
def Error.NoName : Error → Prop
  | .schema _ => False
  | _ => True

/-- A failure, but not one that execution only guards against: for a
placeholder that is left, or for a clause of MERGE that does not fit
whether there is a match. -/
def Error.NoGuard : Error → Prop
  | .binding (.notBound _) | .invalid .insertForMatched | .invalid .insertOnlyForUnmatched => False
  | _ => True

/-- A failure for no name, no number of columns and no place, and none
that is only guarded against. -/
def Error.OfValues : Error → Prop
  | .schema _ | .invalid (.columnOutOfBounds _) => False
  | .binding (.notBound _) | .invalid .insertForMatched | .invalid .insertOnlyForUnmatched => False
  | _ => True

theorem Error.OfValues.noPlace {e : Error} (h : e.OfValues) : e.NoPlace := by
  unfold NoPlace
  split
  · exact h
  · trivial

theorem Error.OfValues.noName {e : Error} (h : e.OfValues) : e.NoName := by
  unfold NoName
  split
  · exact h
  · trivial

theorem Error.OfValues.noGuard {e : Error} (h : e.OfValues) : e.NoGuard := by
  unfold NoGuard
  split
  · exact h
  · exact h
  · exact h
  · trivial

/-- A failure for what the values of a row are, whatever other rows there
are. -/
def Error.OfRow : Error → Prop
  | .constraint (.duplicateKey _ _) => False
  | e => e.OfValues

theorem Error.OfRow.ofValues {e : Error} (h : e.OfRow) : e.OfValues := by
  unfold OfRow at h
  split at h
  · exact h.elim
  · exact h

/-- A computation that fails in allowed ways only, and whose result, if
there is one, is of a kind. -/
structure Yields {α : Type} (allowed : Error → Prop) (P : α → Prop) (r : Result α) : Prop where
  of_ok : ∀ a, r = .ok a → P a
  of_error : ∀ e, r = .error e → allowed e

/-- A computation that fails only for what values are. -/
abbrev OnValues {α : Type} (r : Result α) : Prop :=
  Yields Error.OfValues (fun _ => True) r

/-- A computation that fails only for what the values of a row are. -/
abbrev OnRow {α : Type} (r : Result α) : Prop :=
  Yields Error.OfRow (fun _ => True) r

/-- A computation that does not fail for a place. -/
abbrev PlaceSafe {α : Type} (r : Result α) : Prop :=
  Yields Error.NoPlace (fun _ => True) r

namespace Yields

variable {α β : Type} {allowed : Error → Prop} {P : α → Prop} {Q : β → Prop} {r x : Result α}

theorem pure {a : α} (h : P a) : Yields allowed P (.ok a) where
  of_ok _ heq := Except.ok.inj heq ▸ h
  of_error _ := nofun

theorem fail {e : Error} (h : allowed e) : Yields allowed P (.error e) where
  of_ok _ := nofun
  of_error _ heq := Except.error.inj heq ▸ h

theorem ok (a : α) : Yields allowed (fun _ => True) (.ok a) := pure trivial

theorem typeMismatch (mismatch : TypeMismatch) :
    Yields Error.OfRow P (.error (.typeMismatch mismatch)) := fail trivial

theorem constraint (violation : ConstraintViolation) :
    Yields Error.OfValues P (.error (.constraint violation)) := fail trivial

theorem divisionByZero : Yields Error.OfRow P (.error (.invalid .divisionByZero)) :=
  fail trivial

theorem mono {P' : α → Prop} (h : Yields allowed P r) (himp : ∀ a, r = .ok a → P a → P' a) :
    Yields allowed P' r :=
  ⟨fun a heq => himp a heq (h.of_ok a heq), h.of_error⟩

/-- Nothing is said of the result. -/
theorem forget (h : Yields allowed P r) : Yields allowed (fun _ => True) r :=
  h.mono fun _ _ _ => trivial

theorem weaken {allowed' : Error → Prop} (h : Yields allowed P r)
    (himp : ∀ e, allowed e → allowed' e) : Yields allowed' P r :=
  ⟨h.of_ok, fun e heq => himp e (h.of_error e heq)⟩

theorem bind {f : α → Result β} (hx : Yields allowed P x)
    (hf : ∀ a, x = .ok a → P a → Yields allowed Q (f a)) : Yields allowed Q (x >>= f) := by
  cases x with
  | error e => exact fail (hx.of_error e rfl)
  | ok a => exact hf a rfl (hx.of_ok a rfl)

theorem map {f : α → β} (hx : Yields allowed P x) (hf : ∀ a, P a → Q (f a)) :
    Yields allowed Q (f <$> x) := by
  rw [← bind_pure_comp]
  exact hx.bind fun a _ ha => pure (hf a ha)

theorem ite {p : Prop} [Decidable p] {y : Result α} (hx : p → Yields allowed P x)
    (hy : ¬p → Yields allowed P y) : Yields allowed P (if p then x else y) := by
  split
  · next h => exact hx h
  · next h => exact hy h

theorem guard {p : Prop} [Decidable p] {e : Error} {f : PUnit → Result β} (he : allowed e)
    (h : ¬p → Yields allowed Q (f ⟨⟩)) :
    Yields allowed Q (if p then throw e >>= f else f ⟨⟩) :=
  ite (fun _ => fail he) h

theorem mapM {f : α → Result β} {items : List α} (h : ∀ a ∈ items, Yields allowed Q (f a)) :
    Yields allowed (fun bs => ∀ b ∈ bs, Q b) (items.mapM f) := by
  induction items with
  | nil => exact pure fun b hb => absurd hb List.not_mem_nil
  | cons a rest ih =>
      rw [List.mapM_cons]
      refine bind (h a List.mem_cons_self) fun b _ hb => ?_
      refine bind (ih fun c hc => h c (List.mem_cons_of_mem a hc)) fun bs _ hbs => ?_
      exact pure (List.forall_mem_cons.mpr ⟨hb, hbs⟩)

theorem optionMapM {f : α → Result β} {o : Option α} (h : ∀ a ∈ o, Yields allowed Q (f a)) :
    Yields allowed (fun b? => ∀ b ∈ b?, Q b) (o.mapM f) := by
  cases o with
  | none => exact pure fun _ => nofun
  | some a =>
      rw [Option.mapM_some]
      exact map (h a rfl) fun b hb c hc => Option.mem_some.mp hc ▸ hb

theorem forM {f : α → Result Unit} {items : List α}
    (h : ∀ a ∈ items, Yields allowed (fun _ => True) (f a)) :
    Yields allowed (fun _ => True) (items.forM f) := by
  induction items with
  | nil => exact pure trivial
  | cons a rest ih =>
      refine bind (h a List.mem_cons_self) fun _ _ _ => ?_
      exact ih fun c hc => h c (List.mem_cons_of_mem a hc)

/-- A loop keeps what each of its steps does. -/
theorem foldlM {f : β → α → Result β} {items : List α}
    (h : ∀ a ∈ items, ∀ b, Q b → Yields allowed Q (f b a)) {b : β} (hb : Q b) :
    Yields allowed Q (items.foldlM f b) := by
  induction items generalizing b with
  | nil => exact pure hb
  | cons a rest ih =>
      rw [List.foldlM_cons]
      refine bind (h a List.mem_cons_self b hb) fun b' _ hb' => ?_
      exact ih (fun c hc => h c (List.mem_cons_of_mem a hc)) hb'

end Yields

theorem OnRow.onValues {α : Type} {r : Result α} (h : OnRow r) : OnValues r :=
  h.weaken fun _ he => he.ofValues

theorem OnValues.placeSafe {α : Type} {r : Result α} (h : OnValues r) : PlaceSafe r :=
  h.weaken fun _ he => he.noPlace

-- ================================================================ rows

namespace Rows

variable {allowed : Error → Prop} {rows : Rows}

/-- Every failure in the place of a row is an allowed one. -/
def FailOnly (allowed : Error → Prop) (rows : Rows) : Prop :=
  ∀ e, .error e ∈ rows.toList → allowed e

theorem failOnly_iff :
    rows.FailOnly allowed ↔ ∀ row ∈ rows.toList, Yields allowed (fun _ => True) row := by
  constructor
  · intro h row hrow
    cases row with
    | error e => exact .fail (h e hrow)
    | ok row => exact .ok row
  · intro h e he
    exact (h _ he).of_error e rfl

theorem failOnly_each {α : Type} {row : α → Result Row} {items : List α}
    (h : ∀ a ∈ items, Yields allowed (fun _ => True) (row a)) :
    (each row items).FailOnly allowed := by
  intro e he
  rw [toList_each] at he
  obtain ⟨a, ha, heq⟩ := List.mem_map.mp he
  exact (h a ha).of_error e heq

theorem failOnly_ofList (rows : List Row) : (ofList rows).FailOnly allowed :=
  failOnly_each fun row _ => .ok row

theorem FailOnly.filter (h : rows.FailOnly allowed) {condition : Formula}
    (hcondition : ∀ row, .ok row ∈ rows.toList →
      Yields allowed (fun _ => True) (Formula.holds (some condition) row)) :
    (rows.filter condition).FailOnly allowed := by
  intro e he
  rw [toList_filter] at he
  obtain ⟨before, hbefore, hpassed⟩ := List.mem_filterMap.mp he
  unfold passed at hpassed
  split at hpassed
  · cases hpassed
    exact h _ hbefore
  · next row =>
      split at hpassed
      · cases hpassed
      · cases hpassed
      · next fault hfault =>
          cases hpassed
          exact (hcondition row hbefore).of_error _ hfault

theorem FailOnly.project (h : rows.FailOnly allowed) {formulas : List Formula}
    (hformulas : ∀ row, .ok row ∈ rows.toList →
      Yields allowed (fun _ => True) (Formula.evalList row formulas)) :
    (rows.project formulas).FailOnly allowed := by
  intro e he
  rw [toList_project] at he
  obtain ⟨before, hbefore, heq⟩ := List.mem_map.mp he
  cases before with
  | error fault =>
      cases heq
      exact h _ hbefore
  | ok row => exact (hformulas row hbefore).of_error e heq

theorem FailOnly.drop (h : rows.FailOnly allowed) (count : Nat) :
    (rows.drop count).FailOnly allowed := by
  intro e he
  rw [toList_drop] at he
  exact h e (List.mem_of_mem_drop he)

theorem FailOnly.take (h : rows.FailOnly allowed) (count : Nat) :
    (rows.take count).FailOnly allowed := by
  intro e he
  rw [toList_take] at he
  exact h e (List.mem_of_mem_take he)

theorem FailOnly.fold {α : Type} {P : α → Prop} {step : α → Row → Result α}
    (h : rows.FailOnly allowed)
    (hstep : ∀ row, .ok row ∈ rows.toList → ∀ a, P a → Yields allowed P (step a row)) {a : α}
    (ha : P a) : Yields allowed P (rows.fold step a) := by
  rw [fold_eq]
  refine .foldlM (fun result hresult a ha => ?_) ha
  refine .bind (failOnly_iff.mp h result hresult) fun row heq _ => ?_
  subst heq
  exact hstep row hresult a ha

theorem FailOnly.collect (h : rows.FailOnly allowed) :
    Yields allowed (fun _ => True) rows.collect := by
  rw [collect_eq]
  exact (Yields.mapM (failOnly_iff.mp h)).forget

theorem first?_eq (rows : Rows) : rows.first? = rows.toList.head? := by
  induction rows with
  | done => rfl
  | next row rest => rfl
  | wait rest ih => exact ih ()

theorem FailOnly.first? (h : rows.FailOnly allowed) {row : Result Row}
    (hfirst : rows.first? = some row) : Yields allowed (fun _ => True) row := by
  rw [first?_eq] at hfirst
  exact failOnly_iff.mp h row (List.mem_of_head? hfirst)

end Rows

-- ============================================================== values

namespace Value

theorem onRow_ofInt (i : Int) : OnRow (ofInt i) :=
  .ite (fun _ => .ok _) fun _ => .fail trivial

theorem onRow_identity (value : Value) : OnRow (UnaryOp.identity.apply value) := by
  cases value <;> first | exact .ok _ | exact .typeMismatch _

theorem onRow_negate (value : Value) : OnRow value.negate := by
  cases value <;> first | exact onRow_ofInt _ | exact .ok _ | exact .typeMismatch _

theorem onRow_absolute (value : Value) : OnRow value.absolute := by
  cases value <;> first | exact onRow_ofInt _ | exact .ok _ | exact .typeMismatch _

theorem onRow_arithmetic (op : BinaryOp) {integers : Int64 → Int64 → Result Value}
    (floats : Double → Double → Double) (h : ∀ a b, OnRow (integers a b)) (a b : Value) :
    OnRow (arithmetic op integers floats a b) := by
  cases a <;> cases b <;> first | exact h _ _ | exact .ok _ | exact .typeMismatch _

theorem onRow_add (a b : Value) : OnRow (a.add b) :=
  onRow_arithmetic _ _ (fun _ _ => onRow_ofInt _) a b

theorem onRow_divide (a b : Value) : OnRow (a.divide b) :=
  onRow_arithmetic _ _
    (fun _ _ => .ite (fun _ => .divisionByZero) fun _ => onRow_ofInt _) a b

theorem onRow_readNumber (text : String) (number : Value) :
    OnRow (readNumber text number) := by
  unfold readNumber
  split <;> first | exact .ok _ | exact .typeMismatch _

theorem onRow_compare (a b : Value) : OnRow (a.compare b) := by
  unfold compare
  split <;> try simp only [Yields.ok, Yields.typeMismatch]
  all_goals exact .bind (onRow_readNumber _ _) fun _ _ _ => .ok _

theorem onRow_test (holds : Ordering → Bool) (a b : Value) : OnRow (test holds a b) := by
  refine .bind (onRow_compare a b) fun ordering _ _ => ?_
  cases ordering <;> exact .ok _

theorem onRow_ofText (text : String) : OnRow (Pattern.ofText text) := by
  unfold Pattern.ofText
  exact .ite (fun _ => .ok _) fun _ => .fail trivial

theorem onRow_likePattern (value : Value) (pattern : Pattern) :
    OnRow (value.likePattern pattern) := by
  unfold likePattern
  split <;> first | exact .ok _ | exact .typeMismatch _

theorem onRow_coerce (value : Value) (type : DataType) : OnRow (value.coerce type) := by
  unfold coerce
  dsimp only
  split <;> first | exact .ok _ | exact .typeMismatch _ | skip
  · split <;> first | exact .ok _ | exact .typeMismatch _
  · exact .ite (fun _ => .ok _) fun _ => .ite (fun _ => .ok _) fun _ => .typeMismatch _

end Value

theorem UnaryOp.onRow_apply (op : UnaryOp) (value : Value) : OnRow (op.apply value) := by
  cases op with
  | not =>
      show OnRow value.not
      unfold Value.not
      split <;> first | exact .ok _ | exact .typeMismatch _
  | identity => exact Value.onRow_identity value
  | negate => exact Value.onRow_negate value
  | isNull => exact .ok _

theorem BinaryOp.onRow_apply (op : BinaryOp) (a b : Value) : OnRow (op.apply a b) := by
  cases op <;> first | exact Value.onRow_test _ a b | skip
  case and =>
    show OnRow (Value.and a b)
    unfold Value.and
    split <;> first | exact .ok _ | exact .typeMismatch _
  case or =>
    show OnRow (Value.or a b)
    unfold Value.or
    split <;> first | exact .ok _ | exact .typeMismatch _
  case add => exact Value.onRow_add a b
  case subtract =>
    exact Value.onRow_arithmetic _ _ (fun _ _ => Value.onRow_ofInt _) a b
  case multiply =>
    exact Value.onRow_arithmetic _ _ (fun _ _ => Value.onRow_ofInt _) a b
  case divide => exact Value.onRow_divide a b
  case remainder =>
    refine Value.onRow_arithmetic _ _ (fun _ _ => ?_) a b
    refine .ite (fun _ => .divisionByZero) fun _ => ?_
    exact .bind (Value.onRow_ofInt _) fun _ _ _ => Value.onRow_ofInt _
  case concat =>
    show OnRow (Value.concat a b)
    unfold Value.concat
    split <;> first | exact .ok _ | exact .typeMismatch _
  case like =>
    show OnRow (Value.like a b)
    unfold Value.like
    split <;> first | exact .ok _ | exact .typeMismatch _ | skip
    exact .bind (Value.onRow_ofText _) fun _ _ _ => Value.onRow_likePattern _ _

namespace Function

theorem onRow_lookup (name : String) (count : Nat) : OnRow (lookup name count) := by
  unfold lookup
  dsimp only
  split <;> try split
  all_goals first | exact .ok _ | exact .fail trivial

theorem onRow_onText (function : Function) (f : String → Value) (value : Value) :
    OnRow (onText function f value) := by
  unfold onText
  split <;> first | exact .ok _ | exact .typeMismatch _

theorem onRow_apply (function : Function) (arguments : List Value) :
    OnRow (function.apply arguments) := by
  unfold apply
  cases function <;> first | exact .ok _ | exact onRow_onText _ _ _ | skip
  exact Value.onRow_absolute _

end Function

-- =============================================================== joins

namespace Joining

variable {j : Joining} {allowed : Error → Prop}

theorem onValues_passes (j : Joining) {row : Row}
    (h : ∀ e ∈ j.predicate, OnValues (e.eval row)) : OnValues (j.passes row) := by
  unfold passes
  split
  · exact .ok true
  · next e hpredicate =>
      refine .bind (h e hpredicate) fun value _ _ => ?_
      split <;> first | exact .ok _ | exact .fail trivial

/-- A join fails, at first or in the place of a row, as outer rows do or
as it does to tell whether a combined row passes. -/
theorem rows_yields {inner : List Row} {outer : Rows} (houter : outer.FailOnly allowed)
    (hpasses : ∀ left right, .ok left ∈ outer.toList → right ∈ inner →
      Yields allowed (fun _ => True) (j.passes (j.combine left right))) :
    Yields allowed (Rows.FailOnly allowed) (j.rows inner outer) := by
  refine ⟨fun rows hrows e he => ?_, fun e he => houter e (error_mem_of_rows he)⟩
  have hmade := made_of_mem hrows he
  generalize hresult : (.error e : Result Row) = result at hmade
  cases hmade with
  | failed hmem =>
      cases hresult
      exact houter e hmem
  | @tried left right _ hleft hright htrial =>
      subst hresult
      rcases eq_of_tried htrial with heq | ⟨fault, hfault, heq⟩
      · cases heq
      · cases heq
        exact (hpasses left right hleft hright).of_error _ hfault
  | padded => cases hresult

end Joining

-- ============================================================= grouping

theorem Accumulator.onValues_add (a : Accumulator) (value : Value) : OnValues (a.add value) := by
  unfold add
  split
  · exact .ok a
  · split <;> first | exact .ok _ | exact .bind (Value.onRow_add _ _).onValues fun _ _ _ => .ok _

theorem Accumulator.onValues_value (a : Accumulator) : OnValues a.value := by
  unfold value
  split <;> first | exact .ok _ | exact (Value.onRow_divide _ _).onValues

namespace Grouping

variable {g : Grouping} {allowed : Error → Prop} {row : Row}

theorem onValues_groupRow (key : Row) (accumulators : List Accumulator) :
    OnValues (groupRow key accumulators) :=
  .bind (.mapM fun a _ => a.onValues_value) fun _ _ _ => .ok _

theorem addValues_yields (hallowed : ∀ e : Error, e.OfValues → allowed e)
    {calls : List AggregateCall}
    (h : ∀ call ∈ calls, Yields allowed (fun _ => True) (call.argument.eval row))
    (accumulators : List Accumulator) :
    Yields allowed (fun _ => True) (addValues row calls accumulators) := by
  induction calls generalizing accumulators with
  | nil => exact .ok []
  | cons call calls ih =>
      obtain ⟨hcall, hcalls⟩ := List.forall_mem_cons.mp h
      cases accumulators with
      | nil => exact .ok []
      | cons a accumulators =>
          refine .bind hcall fun value _ _ => ?_
          refine .bind ((a.onValues_add value).weaken hallowed) fun a _ _ => ?_
          exact .bind (ih hcalls accumulators) fun _ _ _ => .ok _

/-- Grouping fails, at first or in the place of a row, as rows before it
do, as the formulas for keys and aggregates do on them, or for what the
values are. -/
theorem rows_yields {input : Rows} (hallowed : ∀ e : Error, e.OfValues → allowed e)
    (hinput : input.FailOnly allowed)
    (hkeys : ∀ row, .ok row ∈ input.toList →
      Yields allowed (fun _ => True) (Formula.evalList row g.keys))
    (hcalls : ∀ row, .ok row ∈ input.toList → ∀ call ∈ g.calls,
      Yields allowed (fun _ => True) (call.argument.eval row)) :
    Yields allowed (Rows.FailOnly allowed) (g.rows input) := by
  have hstep : ∀ row, .ok row ∈ input.toList → ∀ groups : Groups, True →
      Yields allowed (fun _ => True) (g.addRow groups row) := by
    intro row hrow groups _
    refine .bind (hkeys row hrow) fun key _ _ => ?_
    exact .bind (addValues_yields hallowed (hcalls row hrow) _) fun _ _ _ => .ok _
  refine .bind (hinput.fold hstep trivial) fun groups _ _ => ?_
  refine .ite (fun _ => .pure ?_) fun _ => .pure ?_
  · exact Rows.failOnly_each fun _ _ => (onValues_groupRow _ _).weaken hallowed
  · exact Rows.failOnly_each fun _ _ => (onValues_groupRow _ _).weaken hallowed

end Grouping

end DialectDb
