/-
Reasoning about actions. `Guarantees` is the contract of an action that
must not leave anything half done: when it fails, the state is as it
was, and when it succeeds, a relation holds of the result and the state
it leaves. `Ensures` is the weaker contract of what works on a copy that
is dropped on failure: it says nothing about the state of a failed
action. Both are proved along the structure of an action, one rule for
each way to build it, so no proof about a statement has to look inside
the monad.
-/
import DialectDb.Action

namespace DialectDb.Action

variable {σ α β : Type}

-- ========================================================== contracts

/-- From this state the action either fails and leaves the state as it
was, or succeeds with a result and a state that are related. -/
def Guarantees (x : Action σ α) (s : σ) (R : α → σ → Prop) : Prop :=
  match x.perform s with
  | (.error _, after) => after = s
  | (.ok a, after) => R a after

/-- From this state, if the action succeeds, its result and the state it
leaves are related. -/
def Ensures (x : Action σ α) (s : σ) (R : α → σ → Prop) : Prop :=
  ∀ a after, x.perform s = (.ok a, after) → R a after

theorem Guarantees.mono {x : Action σ α} {s : σ} {R R' : α → σ → Prop}
    (h : x.Guarantees s R) (hR : ∀ a after, R a after → R' a after) : x.Guarantees s R' := by
  unfold Guarantees at *
  rcases hx : x.perform s with ⟨_ | a, after⟩
  · rw [hx] at h
    exact h
  · rw [hx] at h
    exact hR a after h

theorem Ensures.mono {x : Action σ α} {s : σ} {R R' : α → σ → Prop}
    (h : x.Ensures s R) (hR : ∀ a after, R a after → R' a after) : x.Ensures s R' :=
  fun a after hx => hR a after (h a after hx)

/-- What holds of the state before, and after a success, holds in any
case. -/
theorem Guarantees.keeps {x : Action σ α} {s : σ} {I : σ → Prop}
    (h : x.Guarantees s fun _ after => I after) (hs : I s) : I (x.perform s).2 := by
  unfold Guarantees at h
  rcases hx : x.perform s with ⟨_ | a, after⟩
  · rw [hx] at h
    rw [h]
    exact hs
  · rw [hx] at h
    exact h

-- ============================================================= performing

theorem perform_get_bind (f : σ → Action σ β) (s : σ) :
    ((get : Action σ σ) >>= f).perform s = (f s).perform s := by
  rw [perform_bind, perform_get]

/-- What comes after a computation that touches no state is done on the
same state, unless the computation fails. -/
theorem perform_lift_bind (r : Result α) (f : α → Action σ β) (s : σ) :
    ((liftM r : Action σ α) >>= f).perform s =
      match r with
      | .ok a => (f a).perform s
      | .error e => (.error e, s) := by
  rw [perform_bind, perform_lift]
  cases r <;> rfl

/-- Of these, the result. -/
theorem perform_lift_bind_fst (r : Result α) (f : α → Action σ β) (s : σ) :
    (((liftM r : Action σ α) >>= f).perform s).1 = r >>= fun a => ((f a).perform s).1 := by
  rw [perform_lift_bind]
  cases r <;> rfl

theorem perform_map (g : α → β) (x : Action σ α) (s : σ) :
    (g <$> x).perform s = (g <$> (x.perform s).1, (x.perform s).2) := by
  rw [← bind_pure_comp, perform_bind]
  rcases x.perform s with ⟨_ | a, after⟩ <;> rfl

/-- Of two actions one after the other, both have succeeded, the second on
the state that the first has left. -/
theorem perform_bind_eq_ok {x : Action σ α} {f : α → Action σ β} {s after : σ} {b : β} :
    (x >>= f).perform s = (.ok b, after) ↔
      ∃ a mid, x.perform s = (.ok a, mid) ∧ (f a).perform mid = (.ok b, after) := by
  rw [perform_bind]
  rcases x.perform s with ⟨_ | a, mid⟩
  · exact ⟨nofun, nofun⟩
  · constructor
    · intro hf
      exact ⟨a, mid, rfl, hf⟩
    · rintro ⟨_, _, hx, hf⟩
      cases hx
      exact hf

theorem perform_lift_bind_eq_ok {r : Result α} {f : α → Action σ β} {s after : σ} {b : β} :
    ((liftM r : Action σ α) >>= f).perform s = (.ok b, after) ↔
      ∃ a, r = .ok a ∧ (f a).perform s = (.ok b, after) := by
  rw [perform_lift_bind]
  cases r with
  | error e => exact ⟨nofun, nofun⟩
  | ok a =>
      constructor
      · intro hf
        exact ⟨a, rfl, hf⟩
      · rintro ⟨_, ha, hf⟩
        cases ha
        exact hf

-- ==================================================== rules: guarantees

theorem guarantees_pure {a : α} {s : σ} {R : α → σ → Prop} (h : R a s) :
    (pure a : Action σ α).Guarantees s R := h

theorem guarantees_throw {e : Error} {s : σ} {R : α → σ → Prop} :
    (throw e : Action σ α).Guarantees s R := rfl

/-- What comes after a computation that touches no state starts from the
same state. -/
theorem guarantees_lift_bind {r : Result α} {f : α → Action σ β} {s : σ} {R : β → σ → Prop}
    (h : ∀ a, r = .ok a → (f a).Guarantees s R) :
    ((liftM r : Action σ α) >>= f).Guarantees s R := by
  unfold Guarantees at *
  rw [perform_bind, perform_lift]
  cases r with
  | error e => rfl
  | ok a => exact h a rfl

theorem guarantees_get_bind {f : σ → Action σ β} {s : σ} {R : β → σ → Prop}
    (h : (f s).Guarantees s R) : ((get : Action σ σ) >>= f).Guarantees s R := by
  unfold Guarantees at *
  rw [perform_bind, perform_get]
  exact h

theorem guarantees_set {s t : σ} {R : PUnit → σ → Prop} (h : R ⟨⟩ t) :
    (set t : Action σ PUnit).Guarantees s R := h

/-- An action on a part of a state guarantees of the whole what it does
of the part, if to put back the part as it was changes nothing. -/
theorem guarantees_onPart {τ : Type} {part : σ → τ} {replace : σ → τ → σ} {x : Action τ α}
    {s : σ} {R : α → σ → Prop} (hsame : replace s (part s) = s)
    (h : x.Guarantees (part s) fun a after => R a (replace s after)) :
    (x.onPart part replace).Guarantees s R := by
  unfold Guarantees at *
  show match ((x.perform (part s)).1, replace s (x.perform (part s)).2) with
    | (.error _, after) => after = s
    | (.ok a, after) => R a after
  rcases hx : x.perform (part s) with ⟨_ | a, after⟩
  · rw [hx] at h
    rw [h]
    exact hsame
  · rw [hx] at h
    exact h

/-- After an action has succeeded, nothing can fail any more: only what
its result is made into may follow. -/
theorem guarantees_bind_pure {x : Action σ α} {g : α → β} {s : σ} {R : β → σ → Prop}
    (h : x.Guarantees s fun a after => R (g a) after) :
    (x >>= fun a => pure (g a)).Guarantees s R := by
  unfold Guarantees at *
  rw [perform_bind]
  rcases hx : x.perform s with ⟨_ | a, after⟩
  · rw [hx] at h
    exact h
  · rw [hx] at h
    exact h

theorem guarantees_map {x : Action σ α} {g : α → β} {s : σ} {R : β → σ → Prop}
    (h : x.Guarantees s fun a after => R (g a) after) : (g <$> x).Guarantees s R := by
  rw [← bind_pure_comp]
  exact guarantees_bind_pure h

-- ======================================================= rules: ensures

theorem ensures_pure {a : α} {s : σ} {R : α → σ → Prop} (h : R a s) :
    (pure a : Action σ α).Ensures s R := by
  intro b after hx
  rw [perform_pure] at hx
  cases hx
  exact h

/-- What succeeds after another action starts where that one ended. -/
theorem ensures_bind {x : Action σ α} {f : α → Action σ β} {s : σ} {R : β → σ → Prop}
    (h : x.Ensures s fun a mid => (f a).Ensures mid R) : (x >>= f).Ensures s R := by
  intro b after hx
  rw [perform_bind] at hx
  rcases hs : x.perform s with ⟨_ | a, mid⟩
  · rw [hs] at hx
    cases hx
  · rw [hs] at hx
    exact h a mid hs b after hx

theorem ensures_lift {r : Result α} {s : σ} {R : α → σ → Prop}
    (h : ∀ a, r = .ok a → R a s) : (liftM r : Action σ α).Ensures s R := by
  intro a after hx
  rw [perform_lift] at hx
  cases hx
  exact h a rfl

theorem ensures_get {s : σ} {R : σ → σ → Prop} (h : R s s) : (get : Action σ σ).Ensures s R := by
  intro a after hx
  rw [perform_get] at hx
  cases hx
  exact h

theorem ensures_set {s t : σ} {R : PUnit → σ → Prop} (h : R ⟨⟩ t) :
    (set t : Action σ PUnit).Ensures s R := by
  intro a after hx
  rw [perform_set] at hx
  cases hx
  exact h

/-- An invariant that every step of a loop keeps is kept by the loop. -/
theorem ensures_forM {I : σ → Prop} {f : α → Action σ PUnit} {items : List α}
    (step : ∀ a ∈ items, ∀ s, I s → (f a).Ensures s fun _ after => I after) :
    ∀ s, I s → (items.forM f).Ensures s fun _ after => I after := by
  induction items with
  | nil =>
      intro s hs
      exact ensures_pure hs
  | cons a rest ih =>
      intro s hs
      refine ensures_bind ((step a List.mem_cons_self s hs).mono fun _ mid hmid => ?_)
      exact ih (fun b hb => step b (List.mem_cons_of_mem a hb)) mid hmid

/-- The same for a loop that carries a value, of which the invariant
says nothing. -/
theorem ensures_foldlM {I : σ → Prop} {f : β → α → Action σ β} {items : List α}
    (step : ∀ a ∈ items, ∀ b s, I s → (f b a).Ensures s fun _ after => I after) :
    ∀ b s, I s → (items.foldlM f b).Ensures s fun _ after => I after := by
  induction items with
  | nil =>
      intro b s hs
      exact ensures_pure hs
  | cons a rest ih =>
      intro b s hs
      rw [List.foldlM_cons]
      refine ensures_bind ((step a List.mem_cons_self b s hs).mono fun b' mid hmid => ?_)
      exact ih (fun c hc => step c (List.mem_cons_of_mem a hc)) b' mid hmid

end DialectDb.Action
