/-
Reading results apart: when a computation that is put together from
others succeeds, its parts have succeeded. Proofs take a computation
apart with these, so that they never unfold the monad.
-/
import DialectDb.Error
import Mathlib.Data.List.Forall2

namespace DialectDb.Result

variable {α β γ : Type}

@[simp] theorem ok_bind (a : α) (f : α → Result β) : (Except.ok a >>= f) = f a := rfl

@[simp] theorem error_bind (e : Error) (f : α → Result β) :
    ((Except.error e : Result α) >>= f) = .error e := rfl

@[simp] theorem map_ok (f : α → β) (a : α) : f <$> (.ok a : Result α) = .ok (f a) := rfl

@[simp] theorem map_error (f : α → β) (e : Error) :
    f <$> (.error e : Result α) = .error e := rfl

/-- Of two computations one after the other, both have succeeded. -/
theorem bind_eq_ok {x : Result α} {f : α → Result β} {b : β} :
    x >>= f = .ok b ↔ ∃ a, x = .ok a ∧ f a = .ok b := by
  constructor
  · intro h
    cases x with
    | error e => cases h
    | ok a => exact ⟨a, rfl, h⟩
  · rintro ⟨a, rfl, hf⟩
    exact hf

/-- What comes after a check has succeeded only if the check has. -/
theorem guard_eq_ok {p : Prop} [Decidable p] {e : Error} {f : PUnit → Result β} {b : β} :
    (if p then throw e >>= f else f ⟨⟩) = .ok b ↔ ¬p ∧ f ⟨⟩ = .ok b := by
  split
  · next h => exact ⟨nofun, fun hnot => absurd h hnot.1⟩
  · next h => exact ⟨fun hf => ⟨h, hf⟩, And.right⟩

/-- Two computations that follow the same one need to agree only where it
has succeeded. -/
theorem bind_congr_ok {x : Result α} {f g : α → Result β}
    (h : ∀ a, x = .ok a → f a = g a) : x >>= f = x >>= g := by
  cases x with
  | error e => rfl
  | ok a => exact h a rfl

theorem map_eq_ok {x : Result α} {f : α → β} {b : β} :
    f <$> x = .ok b ↔ ∃ a, x = .ok a ∧ f a = b := by
  cases x with
  | error e => exact ⟨nofun, nofun⟩
  | ok a =>
      constructor
      · intro h
        exact ⟨a, rfl, Except.ok.inj h⟩
      · rintro ⟨_, ha, rfl⟩
        cases ha
        rfl

theorem map_eq_error {x : Result α} {f : α → β} {e : Error} :
    f <$> x = .error e ↔ x = .error e := by
  cases x with
  | error e' => rw [map_error, Except.error.injEq, Except.error.injEq]
  | ok a => exact ⟨nofun, nofun⟩

theorem pure_eq_ok {a b : α} : (pure a : Result α) = .ok b ↔ a = b :=
  ⟨Except.ok.inj, congrArg _⟩

/-- A computation on every item of a list succeeds iff it does on each of
them, and its result has theirs in order. -/
theorem mapM_eq_ok {f : α → Result β} {items : List α} {results : List β} :
    items.mapM f = .ok results ↔ List.Forall₂ (fun a b => f a = .ok b) items results := by
  induction items generalizing results with
  | nil =>
      rw [List.mapM_nil, pure_eq_ok, List.forall₂_nil_left_iff]
      exact eq_comm
  | cons a rest ih =>
      rw [List.mapM_cons, bind_eq_ok, List.forall₂_cons_left_iff]
      simp only [bind_eq_ok, pure_eq_ok, ih]
      constructor
      · rintro ⟨b, hb, bs, hbs, rfl⟩
        exact ⟨b, bs, hb, hbs, rfl⟩
      · rintro ⟨b, bs, hb, hbs, rfl⟩
        exact ⟨b, hb, bs, hbs, rfl⟩

/-- What there is for each item of a list there is for all of them in
order. -/
theorem exists_forall₂ {R : α → β → Prop} {items : List α} :
    (∃ results, List.Forall₂ R items results) ↔ ∀ a ∈ items, ∃ b, R a b := by
  induction items with
  | nil => exact iff_of_true ⟨[], .nil⟩ fun _ ha => absurd ha List.not_mem_nil
  | cons a rest ih =>
      rw [List.forall_mem_cons, ← ih]
      constructor
      · rintro ⟨_, hall⟩
        obtain ⟨b, bs, hb, hbs, -⟩ := List.forall₂_cons_left_iff.mp hall
        exact ⟨⟨b, hb⟩, bs, hbs⟩
      · rintro ⟨⟨b, hb⟩, bs, hbs⟩
        exact ⟨b :: bs, .cons hb hbs⟩

/-- Two steps that are taken for each item of a list are taken for all of
them in order, one step after the other. -/
theorem forall₂_comp_iff {R : α → β → Prop} {S : β → γ → Prop} {items : List α}
    {results : List γ} : List.Forall₂ (fun a c => ∃ b, R a b ∧ S b c) items results ↔
      ∃ mids, List.Forall₂ R items mids ∧ List.Forall₂ S mids results := by
  constructor
  · intro h
    induction h with
    | nil => exact ⟨[], .nil, .nil⟩
    | cons hfirst _ ih =>
        obtain ⟨b, hb, hc⟩ := hfirst
        obtain ⟨mids, hmids, hresults⟩ := ih
        exact ⟨b :: mids, .cons hb hmids, .cons hc hresults⟩
  · rintro ⟨mids, hmids, hresults⟩
    induction hmids generalizing results with
    | nil => cases hresults; exact .nil
    | cons hb _ ih =>
        obtain ⟨c, cs, hc, hcs, rfl⟩ := List.forall₂_cons_left_iff.mp hresults
        exact .cons ⟨_, hb, hc⟩ (ih hcs)

/-- Two lists that are told by the same items, each item by item, are the
same. -/
theorem forall₂_unique {R S : α → β → Prop} {items : List α} {results others : List β}
    (h : ∀ a ∈ items, ∀ b c, R a b → S a c → b = c) (hresults : List.Forall₂ R items results)
    (hothers : List.Forall₂ S items others) : results = others := by
  induction hresults generalizing others with
  | nil => exact (List.forall₂_nil_left_iff.mp hothers).symm
  | cons hb _ ih =>
      obtain ⟨hfirst, hrest⟩ := List.forall_mem_cons.mp h
      obtain ⟨c, cs, hc, hcs, rfl⟩ := List.forall₂_cons_left_iff.mp hothers
      rw [hfirst _ c hb hc, ih hrest hcs]

/-- Where what a computation gives can be told beforehand, so can what it
gives on a list. -/
theorem mapM_eq_ok_map {f : α → Result β} {g : α → β} {P : α → Prop} {items : List α}
    (h : ∀ a ∈ items, ∀ b, f a = .ok b ↔ P a ∧ b = g a) {results : List β} :
    items.mapM f = .ok results ↔ (∀ a ∈ items, P a) ∧ results = items.map g := by
  induction items generalizing results with
  | nil =>
      rw [List.mapM_nil, pure_eq_ok]
      refine ⟨fun hnil => ⟨fun a ha => ?_, hnil.symm⟩, fun hall => hall.2.symm⟩
      cases ha
  | cons a rest ih =>
      obtain ⟨hfirst, hrest⟩ := List.forall_mem_cons.mp h
      rw [List.mapM_cons, bind_eq_ok, List.forall_mem_cons, List.map_cons]
      simp only [bind_eq_ok, pure_eq_ok, ih hrest, hfirst]
      constructor
      · rintro ⟨_, ⟨ha, rfl⟩, _, ⟨hall, rfl⟩, rfl⟩
        exact ⟨⟨ha, hall⟩, rfl⟩
      · rintro ⟨⟨ha, hall⟩, rfl⟩
        exact ⟨_, ⟨ha, rfl⟩, _, ⟨hall, rfl⟩, rfl⟩

theorem mapM_congr {f g : α → Result β} {items : List α} (h : ∀ a ∈ items, f a = g a) :
    items.mapM f = items.mapM g := by
  induction items with
  | nil => rfl
  | cons a rest ih =>
      have hrest := ih fun b hb => h b (List.mem_cons_of_mem a hb)
      rw [List.mapM_cons, List.mapM_cons, h a List.mem_cons_self, hrest]

/-- The results of such a computation are those of the items. -/
theorem mem_mapM {f : α → Result β} {items : List α} {results : List β}
    (h : items.mapM f = .ok results) {b : β} : b ∈ results ↔ ∃ a ∈ items, f a = .ok b := by
  have hall := mapM_eq_ok.mp h
  clear h
  induction hall with
  | nil => simp
  | @cons a c items results hfirst _ ih =>
      have hsame : b = c ↔ f a = .ok b := by
        rw [hfirst, Except.ok.injEq]
        exact eq_comm
      rw [List.mem_cons, List.exists_mem_cons_iff]
      exact or_congr hsame ih

/-- Results none of which is a failure are values. -/
theorem eq_map_ok {results : List (Result α)} (h : ∀ e, .error e ∉ results) :
    ∃ values : List α, results = values.map .ok := by
  induction results with
  | nil => exact ⟨[], rfl⟩
  | cons result rest ih =>
      obtain ⟨values, hvalues⟩ := ih fun e he => h e (List.mem_cons_of_mem result he)
      cases result with
      | error e => exact absurd List.mem_cons_self (h e)
      | ok value => exact ⟨value :: values, by rw [hvalues, List.map_cons]⟩

theorem map_ok_injective : Function.Injective (List.map (.ok : α → Result α)) :=
  List.map_injective_iff.mpr fun _ _ => Except.ok.inj

/-- A check of every item of a list succeeds iff it does on each of
them. -/
theorem forM_eq_ok {f : α → Result Unit} {items : List α} :
    items.forM f = .ok ⟨⟩ ↔ ∀ a ∈ items, f a = .ok ⟨⟩ := by
  induction items with
  | nil => exact ⟨fun _ _ h => absurd h List.not_mem_nil, fun _ => rfl⟩
  | cons a rest ih =>
      rw [List.forall_mem_cons, ← ih]
      show (f a >>= fun _ => rest.forM f) = .ok ⟨⟩ ↔ _
      rw [bind_eq_ok]
      constructor
      · rintro ⟨_, ha, hrest⟩
        exact ⟨ha, hrest⟩
      · rintro ⟨ha, hrest⟩
        exact ⟨⟨⟩, ha, hrest⟩

/-- What a step of a loop keeps whenever it succeeds, the loop keeps. -/
theorem foldlM_keeps {I : β → Prop} {f : β → α → Result β} {items : List α}
    (step : ∀ a ∈ items, ∀ b b', I b → f b a = .ok b' → I b') {b b' : β} (hb : I b)
    (h : items.foldlM f b = .ok b') : I b' := by
  induction items generalizing b with
  | nil =>
      cases h
      exact hb
  | cons a rest ih =>
      rw [List.foldlM_cons, bind_eq_ok] at h
      obtain ⟨mid, hmid, hrest⟩ := h
      have hstep := step a List.mem_cons_self b mid hb hmid
      exact ih (fun c hc => step c (List.mem_cons_of_mem a hc)) hstep hrest

end DialectDb.Result
