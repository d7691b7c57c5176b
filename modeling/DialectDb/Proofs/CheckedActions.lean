/-
Actions with every look checked. Statements that write look at rows by
their keys, at the rows in the way and at those at selected places, in
the copy of a table's rows as it is by then. So what is found is said for
a state, and of an action after another for the state that the first one
leaves.
-/
import DialectDb.Proofs.CheckedQueries
import DialectDb.Proofs.PlacedStatements

namespace DialectDb

open DialectDb.Action

/-- An action that stops at the first look at something that is not
there. Otherwise it gives a result or fails, and leaves a state behind in
either case. -/
abbrev CheckedAction (σ α : Type) := ExceptT Error (StateT σ (Except Missing)) α

namespace CheckedAction

variable {σ α β : Type}

/-- What an action does on a state, unless it stops. -/
def perform (x : CheckedAction σ α) (s : σ) : Except Missing (Result α × σ) := x s

/-- A checked computation that touches no state. -/
def lift (x : Checked α) : CheckedAction σ α := fun s => (·, s) <$> x.run

instance : MonadLift Checked (CheckedAction σ) := ⟨lift⟩

/-- What is done without looks of its own. -/
def of (x : Action σ α) : CheckedAction σ α := fun s =>
  (·, (x.perform s).2) <$> (Checked.of (x.perform s).1).run

/-- From this state an action finds all that it looks at, and does what a
plain one does. -/
def FindsAt (x : CheckedAction σ α) (plain : Action σ α) (s : σ) : Prop :=
  x.perform s = .ok (plain.perform s)

namespace FindsAt

variable {s : σ} {x : CheckedAction σ α} {plain : Action σ α}

theorem pure (a : α) : FindsAt (Pure.pure a) (Pure.pure a) s := rfl

theorem set (t : σ) : FindsAt (MonadStateOf.set t) (MonadStateOf.set t) s := rfl

theorem modify (f : σ → σ) : FindsAt (modify f) (modify f) s := rfl

theorem of (h : plain.FailsOnly Error.NoPlace s) : FindsAt (CheckedAction.of plain) plain s := by
  have hresult : (Checked.of (plain.perform s).1).run = .ok (plain.perform s).1 :=
    Checked.finds_of h
  show (·, (plain.perform s).2) <$> (Checked.of (plain.perform s).1).run = _
  rw [hresult]
  rfl

theorem bind {f : α → CheckedAction σ β} {g : α → Action σ β} (hx : FindsAt x plain s)
    (hf : plain.Ensures s fun a mid => FindsAt (f a) (g a) mid) :
    FindsAt (x >>= f) (plain >>= g) s := by
  have hrun : (x >>= f).perform s = x.perform s >>= fun p => ExceptT.bindCont f p.1 p.2 := rfl
  unfold FindsAt at *
  rw [hrun, hx, perform_bind]
  rcases hplain : plain.perform s with ⟨e | a, mid⟩
  · rfl
  · exact hf a mid hplain

theorem get_bind {f : σ → CheckedAction σ β} {g : σ → Action σ β} (h : FindsAt (f s) (g s) s) :
    FindsAt (get >>= f) (get >>= g) s :=
  bind rfl (ensures_get h)

theorem lift {y : Checked α} {r : Result α} (hy : y.Finds r) :
    FindsAt (liftM y) (liftM r) s := by
  show (·, s) <$> y.run = _
  rw [hy]
  rfl

/-- What comes after a computation that touches no state. -/
theorem lift_bind {y : Checked α} {r : Result α} {f : α → CheckedAction σ β} {g : α → Action σ β}
    (hy : y.Finds r) (hf : ∀ a, r = .ok a → FindsAt (f a) (g a) s) :
    FindsAt (liftM y >>= f) (liftM r >>= g) s :=
  bind (lift hy) (ensures_lift hf)

/-- Of which something is known. -/
theorem lift_bind_yields {P : α → Prop} {y : Checked α} {r : Result α} {f : α → CheckedAction σ β}
    {g : α → Action σ β} (hy : y.Finds r) (hr : Yields Error.NoPlace P r)
    (hf : ∀ a, r = .ok a → P a → FindsAt (f a) (g a) s) :
    FindsAt (liftM y >>= f) (liftM r >>= g) s :=
  lift_bind hy fun a ha => hf a ha (hr.of_ok a ha)

/-- What comes after a computation without looks of its own. -/
theorem of_bind {P : α → Prop} {r : Result α} {f : α → CheckedAction σ β} {g : α → Action σ β}
    (hr : Yields Error.NoPlace P r) (hf : ∀ a, r = .ok a → P a → FindsAt (f a) (g a) s) :
    FindsAt (liftM (Checked.of r) >>= f) (liftM r >>= g) s :=
  lift_bind_yields (Checked.finds_of hr) hr hf

/-- Of one with a known result, what comes next is left. -/
theorem lift_bind_ok {a : α} {y : Checked α} {f : α → CheckedAction σ β} {plain : Action σ β}
    (hy : y.Finds (.ok a)) (hf : FindsAt (f a) plain s) : FindsAt (liftM y >>= f) plain s :=
  lift_bind (g := fun _ => plain) hy fun _ ha => Except.ok.inj ha ▸ hf

theorem map (f : α → β) (hx : FindsAt x plain s) : FindsAt (f <$> x) (f <$> plain) s := by
  rw [← bind_pure_comp, ← bind_pure_comp]
  exact bind hx fun a _ _ => pure (f a)

/-- A loop, with what its steps keep. -/
theorem forM {I : σ → Prop} {f : α → CheckedAction σ PUnit} {g : α → Action σ PUnit}
    {items : List α} (h : ∀ a ∈ items, ∀ s, I s → FindsAt (f a) (g a) s)
    (keeps : ∀ a ∈ items, ∀ s, I s → (g a).Ensures s fun _ after => I after) {s : σ} (hs : I s) :
    FindsAt (items.forM f) (items.forM g) s := by
  induction items generalizing s with
  | nil => exact pure PUnit.unit
  | cons a rest ih =>
      obtain ⟨hfirst, hrest⟩ := List.forall_mem_cons.mp h
      obtain ⟨hkeeps, hkept⟩ := List.forall_mem_cons.mp keeps
      exact bind (hfirst s hs) ((hkeeps s hs).mono fun _ _ hmid => ih hrest hkept hmid)

theorem foldlM {I : σ → Prop} {f : β → α → CheckedAction σ β} {g : β → α → Action σ β}
    {items : List α} (h : ∀ a ∈ items, ∀ b s, I s → FindsAt (f b a) (g b a) s)
    (keeps : ∀ a ∈ items, ∀ b s, I s → (g b a).Ensures s fun _ after => I after) {b : β} {s : σ}
    (hs : I s) : FindsAt (items.foldlM f b) (items.foldlM g b) s := by
  induction items generalizing b s with
  | nil => exact pure b
  | cons a rest ih =>
      obtain ⟨hfirst, hrest⟩ := List.forall_mem_cons.mp h
      obtain ⟨hkeeps, hkept⟩ := List.forall_mem_cons.mp keeps
      rw [List.foldlM_cons, List.foldlM_cons]
      exact bind (hfirst b s hs) ((hkeeps b s hs).mono fun _ _ hmid => ih hrest hkept hmid)

end FindsAt

end CheckedAction

end DialectDb
