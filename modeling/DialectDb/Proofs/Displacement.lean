/-
Two texts that are cut into the same tokens, though at other places, are
read alike: with the same result, or with failures that say the same of
places that correspond (`Alike`).

Where a token stands only ever goes into a failure. So there is a rule
for each reader of `Grammar.Parser` and for each way to put readers
together, and none asks anything of how places correspond, which can be
any relation between the positions of the two texts. One reader gives a
position as its result; what is read after it may differ in that.
-/
import DialectDb.Proofs.Reading
import Mathlib.Data.Option.Basic

namespace DialectDb

/-- Failures that say the same, of corresponding places if they name
any. -/
inductive Error.Displaced (R : Nat → Nat → Prop) : Error → Error → Prop
  | malformed {p q : Nat} (h : R p q) (f : Malformed) :
      Error.Displaced R (.malformed p f) (.malformed q f)
  | other {e : Error} (h : ∀ p f, e ≠ .malformed p f) : Error.Displaced R e e

/-- Two results that are the same, or failures that say the same of
corresponding places. -/
inductive Result.Displaced {α : Type} (R : Nat → Nat → Prop) : Result α → Result α → Prop
  | ok (a : α) : Result.Displaced R (.ok a) (.ok a)
  | error {e e' : Error} (h : e.Displaced R e') : Result.Displaced R (.error e) (.error e')

namespace Lexer

/-- The same token at a corresponding place. -/
structure Lexeme.Displaced (R : Nat → Nat → Prop) (l m : Lexeme) : Prop where
  position : R l.position m.position
  token : l.token = m.token

/-- The same lexical failure at a corresponding place. -/
structure Failure.Displaced (R : Nat → Nat → Prop) (f g : Failure) : Prop where
  position : R f.position g.position
  fault : f.fault = g.fault

/-- The same tokens, and the same failure behind them if there is one. -/
structure Lexed.Displaced (R : Nat → Nat → Prop) (l m : Lexed) : Prop where
  lexemes : List.Forall₂ (Lexeme.Displaced R) l.lexemes m.lexemes
  failure : Option.Rel (Failure.Displaced R) l.failure m.failure

end Lexer

/-- The same tokens are left, and as many placeholders are counted. -/
structure Cursor.Displaced (R : Nat → Nat → Prop) (c d : Cursor) : Prop where
  lexemes : List.Forall₂ (Lexer.Lexeme.Displaced R) c.lexemes d.lexemes
  position : R c.position d.position
  ordinals : c.ordinals = d.ordinals

/-- One token further on both sides. -/
theorem Cursor.Displaced.advance {R : Nat → Nat → Prop} {l m : Lexer.Lexeme}
    {lexemes lexemes' : List Lexer.Lexeme} (h : l.Displaced R m)
    (hrest : List.Forall₂ (Lexer.Lexeme.Displaced R) lexemes lexemes') (ordinals : Nat) :
    Cursor.Displaced R ⟨lexemes, l.position, ordinals⟩ ⟨lexemes', m.position, ordinals⟩ :=
  ⟨hrest, h.position, rfl⟩

/-- The same is around, up to where the text ends. -/
structure Surroundings.Displaced (R : Nat → Nat → Prop) (s t : Surroundings) : Prop where
  version : s.version = t.version
  failure : Option.Rel (Lexer.Failure.Displaced R) s.failure t.failure
  size : R s.size t.size
  upsert : s.upsert = t.upsert

namespace Parser

variable {α β γ δ : Type} {R : Nat → Nat → Prop} {S : α → β → Prop} {T : γ → δ → Prop}
  {x : Parser α} {y : Parser β} {f : α → Parser γ} {g : β → Parser δ}

/-- What two readers end with: related results with the same tokens left,
or failures that say the same. -/
inductive Outcomes (R : Nat → Nat → Prop) (S : α → β → Prop) :
    Result (α × Cursor) → Result (β × Cursor) → Prop
  | ok {a : α} {b : β} {c d : Cursor} (hvalue : S a b) (hcursor : c.Displaced R d) :
      Outcomes R S (.ok (a, c)) (.ok (b, d))
  | error {e e' : Error} (h : e.Displaced R e') : Outcomes R S (.error e) (.error e')

theorem Outcomes.imp {S' : α → β → Prop} {r : Result (α × Cursor)} {r' : Result (β × Cursor)}
    (h : Outcomes R S r r') (hS : ∀ a b, S a b → S' a b) : Outcomes R S' r r' := by
  cases h with
  | ok hvalue hcursor => exact .ok (hS _ _ hvalue) hcursor
  | error h => exact .error h

/-- What is left to read is forgotten in the end. -/
theorem Outcomes.result {r r' : Result (α × Cursor)} (h : Outcomes R Eq r r') :
    (r >>= fun p => pure p.1).Displaced R (r' >>= fun p => pure p.1) := by
  cases h with
  | ok hvalue hcursor =>
      subst hvalue
      exact .ok _
  | error h => exact .error h

/-- A reader of one text and a reader of the other read alike. -/
def Alike (R : Nat → Nat → Prop) (x : Parser α) (y : Parser β) (S : α → β → Prop) : Prop :=
  ∀ around around' c c', Surroundings.Displaced R around around' → Cursor.Displaced R c c' →
    Outcomes R S (x.perform around c) (y.perform around' c')

/-- A reader that reads both texts alike, with the same result. -/
abbrev ReadsAlike (R : Nat → Nat → Prop) (x : Parser α) : Prop :=
  Alike R x x Eq

-- ============================================================= sequence

theorem alike_pure {a : α} {b : β} (h : S a b) : Alike R (pure a) (pure b) S :=
  fun _ _ _ _ _ hc => .ok h hc

/-- A failure that names no place. -/
theorem alike_throw {e : Error} (h : ∀ p f, e ≠ .malformed p f) :
    Alike R (throw e : Parser α) (throw e : Parser β) S :=
  fun _ _ _ _ _ _ => .error (.other h)

theorem alike_invalid {cause : InvalidOperation} :
    Alike R (throw (.invalid cause) : Parser α) (throw (.invalid cause) : Parser β) S :=
  alike_throw (by simp)

theorem alike_malformed {p q : Nat} (h : R p q) {m : Malformed} :
    Alike R (throw (.malformed p m) : Parser α) (throw (.malformed q m) : Parser β) S :=
  fun _ _ _ _ _ _ => .error (.malformed h m)

theorem Alike.bind (hx : Alike R x y S) (hf : ∀ a b, S a b → Alike R (f a) (g b) T) :
    Alike R (x >>= f) (y >>= g) T := by
  intro around around' c c' haround hc
  have hfirst := hx around around' c c' haround hc
  show Outcomes R T (x.perform around c >>= fun p => (f p.1).perform around p.2)
    (y.perform around' c' >>= fun p => (g p.1).perform around' p.2)
  generalize x.perform around c = first, y.perform around' c' = first' at hfirst
  cases hfirst with
  | ok hvalue hcursor => exact hf _ _ hvalue _ _ _ _ haround hcursor
  | error h => exact .error h

/-- Where the results are the same, one of them is enough. -/
theorem Alike.then {x y : Parser α} {f g : α → Parser γ} {T : γ → γ → Prop}
    (hx : Alike R x y Eq) (hf : ∀ a, Alike R (f a) (g a) T) : Alike R (x >>= f) (y >>= g) T :=
  hx.bind fun a _ h => h ▸ hf a

theorem Alike.map {x y : Parser α} (f : α → γ) (hx : Alike R x y Eq) :
    Alike R (f <$> x) (f <$> y) Eq := by
  rw [← bind_pure_comp, ← bind_pure_comp]
  exact hx.then fun _ => alike_pure rfl

/-- Both sides take the same branch. -/
theorem Alike.ite {p : Prop} [Decidable p] {x' : Parser α} {y' : Parser β} (hx : Alike R x y S)
    (hy : Alike R x' y' S) : Alike R (if p then x else x') (if p then y else y') S := by
  split
  · exact hx
  · exact hy

/-- A reader that is left out on a condition, before another. -/
theorem Alike.when {p : Prop} [Decidable p] {x y : Parser Unit} {f g : Unit → Parser γ}
    {T : γ → γ → Prop} (hx : Alike R x y Eq) (hf : Alike R (f ()) (g ()) T) :
    Alike R (if p then x >>= f else f ()) (if p then y >>= g else g ()) T :=
  .ite (hx.then fun _ => hf) hf

/-- One of two readers, before another. -/
theorem Alike.choose {p : Prop} [Decidable p] {x x' y y' : Parser α} {f g : α → Parser γ}
    {T : γ → γ → Prop} (hx : Alike R x y Eq) (hx' : Alike R x' y' Eq)
    (hf : ∀ a, Alike R (f a) (g a) T) :
    Alike R (if p then x >>= f else x' >>= f) (if p then y >>= g else y' >>= g) T :=
  .ite (hx.then hf) (hx'.then hf)

-- =================================================== what is read around

theorem alike_read {f : Surroundings → Parser γ} {g : Surroundings → Parser δ}
    (h : ∀ s t, s.Displaced R t → Alike R (f s) (g t) T) :
    Alike R (read >>= f) (read >>= g) T :=
  fun around around' c c' haround hc => h around around' haround around around' c c' haround hc

/-- Whether a construct is there does not depend on where it stands. -/
theorem alike_require (condition : DialectVersion → Bool) (feature : Feature) :
    ReadsAlike R (require condition feature) := by
  refine alike_read fun s t h => ?_
  rw [h.version]
  exact .ite (alike_pure rfl) (alike_throw (by simp))

/-- What upsert assignments are read with. -/
theorem Alike.upserting (h : Alike R x y S) :
    Alike R (withReader ({ · with upsert := true }) x) (withReader ({ · with upsert := true }) y)
      S :=
  fun _ _ c c' haround hc => h _ _ c c' { haround with upsert := rfl } hc

-- ======================================================== single tokens

theorem alike_get {f : Cursor → Parser γ} {g : Cursor → Parser δ}
    (h : ∀ c d, c.Displaced R d → Alike R (f c) (g d) T) : Alike R (get >>= f) (get >>= g) T :=
  fun around around' c c' haround hc => h c c' hc around around' c c' haround hc

theorem alike_set {c d : Cursor} (h : c.Displaced R d) :
    Alike R (set c : Parser PUnit) (set d : Parser PUnit) Eq :=
  fun _ _ _ _ _ _ => .ok rfl h

theorem alike_fault {m : Malformed} : Alike R (fault m : Parser α) (fault m : Parser β) S :=
  alike_get fun _ _ h => alike_malformed h.position

theorem alike_ending : Alike R (ending : Parser α) (ending : Parser β) S := by
  refine alike_read fun s t h => ?_
  obtain ⟨version, failure, size, upsert⟩ := s
  obtain ⟨version', failure', size', upsert'⟩ := t
  obtain ⟨-, hfailure, hsize, -⟩ := h
  cases hfailure with
  | none => exact alike_malformed hsize
  | @some f g hsame =>
      dsimp only
      rw [hsame.fault]
      exact alike_malformed hsame.position

theorem alike_next : ReadsAlike R next := by
  refine alike_get fun c d h => ?_
  obtain ⟨lexemes, position, ordinals⟩ := c
  obtain ⟨lexemes', position', ordinals'⟩ := d
  obtain ⟨hlexemes, -, rfl⟩ := h
  cases hlexemes with
  | nil => exact alike_ending
  | cons hfirst hrest =>
      exact (alike_set (.advance hfirst hrest _)).then fun _ => alike_pure hfirst.token

theorem alike_peek : ReadsAlike R peek := by
  refine alike_get fun c d h => ?_
  obtain ⟨lexemes, position, ordinals⟩ := c
  obtain ⟨lexemes', position', ordinals'⟩ := d
  obtain ⟨hlexemes, -, -⟩ := h
  cases hlexemes with
  | cons hfirst hrest => exact alike_pure (congrArg some hfirst.token)
  | nil =>
      refine alike_read fun s t h => ?_
      obtain ⟨version, failure, size, upsert⟩ := s
      obtain ⟨version', failure', size', upsert'⟩ := t
      obtain ⟨-, hfailure, -, -⟩ := h
      cases hfailure with
      | none => exact alike_pure rfl
      | @some f g hsame =>
          dsimp only
          rw [hsame.fault]
          exact alike_malformed hsame.position

theorem alike_peekSecond : ReadsAlike R peekSecond := by
  refine alike_get fun c d h => alike_pure ?_
  obtain ⟨lexemes, position, ordinals⟩ := c
  obtain ⟨lexemes', position', ordinals'⟩ := d
  obtain ⟨hlexemes, -, -⟩ := h
  cases hlexemes with
  | nil => rfl
  | cons _ hrest =>
      cases hrest with
      | nil => rfl
      | cons hsecond _ => exact congrArg some hsecond.token

/-- The one reader that tells a position. -/
theorem alike_peekPosition : Alike R peekPosition peekPosition R := by
  refine alike_get fun c d h => ?_
  obtain ⟨lexemes, position, ordinals⟩ := c
  obtain ⟨lexemes', position', ordinals'⟩ := d
  obtain ⟨hlexemes, -, -⟩ := h
  cases hlexemes with
  | cons hfirst _ => exact alike_pure hfirst.position
  | nil => exact alike_read fun _ _ h => alike_pure h.size

/-- What is made of a token has the properties of all that the function
can make. -/
theorem alike_nextMap_of {p : α → Prop} {f : Token → Option α} (hf : ∀ t, IfSome p (f t)) :
    Alike R (nextMap? f) (nextMap? f) fun a b => a = b ∧ IfSome p a := by
  refine alike_get fun c d h => ?_
  obtain ⟨lexemes, position, ordinals⟩ := c
  obtain ⟨lexemes', position', ordinals'⟩ := d
  obtain ⟨hlexemes, -, rfl⟩ := h
  cases hlexemes with
  | nil => exact alike_pure ⟨rfl, nofun⟩
  | cons hfirst hrest =>
      dsimp only
      rw [hfirst.token]
      split
      · exact alike_pure ⟨rfl, nofun⟩
      · next a ha =>
          exact (alike_set (.advance hfirst hrest _)).then fun _ =>
            alike_pure ⟨rfl, ifSome_some (hf _ a ha)⟩

theorem alike_nextMap (f : Token → Option α) : ReadsAlike R (nextMap? f) := by
  intro around around' c c' haround hc
  have hsame := alike_nextMap_of (R := R) (p := fun _ => True) (f := f) (fun _ _ _ => trivial)
    around around' c c' haround hc
  exact hsame.imp fun _ _ h => h.1

theorem alike_accept (t : Token) : ReadsAlike R (accept t) :=
  (alike_nextMap _).then fun _ => alike_pure rfl

theorem alike_expect (t : Token) : ReadsAlike R (expect t) :=
  alike_next.then fun _ => .ite (alike_pure rfl) alike_fault

theorem alike_skipOver (t : Token) : ReadsAlike R (skipOver t) :=
  (alike_accept t).then fun _ => alike_pure rfl

theorem alike_identifier : ReadsAlike R identifier := by
  refine alike_next.then fun t => ?_
  split
  · exact alike_pure rfl
  · exact alike_fault

-- =========================================================== repetition

theorem alike_iterateWithin {step : α → Parser (Option α)}
    (hstep : ∀ a, ReadsAlike R (step a)) (count : Nat) (a : α) :
    ReadsAlike R (iterateWithin step count a) := by
  induction count generalizing a with
  | zero => exact alike_pure rfl
  | succ count ih =>
      refine (hstep a).then fun b? => ?_
      split
      · exact alike_pure rfl
      · exact ih _

/-- As many tokens are left on both sides, so that the rounds are bounded
alike. -/
theorem alike_iterate {step : α → Parser (Option α)} (hstep : ∀ a, ReadsAlike R (step a))
    (a : α) : ReadsAlike R (iterate step a) := by
  refine alike_get fun c d h => ?_
  rw [h.lexemes.length_eq]
  exact alike_iterateWithin hstep _ a

theorem alike_commaFold {item : α → Parser α} (hitem : ∀ a, ReadsAlike R (item a)) (a : α) :
    ReadsAlike R (commaFold item a) := by
  refine (hitem a).then fun b => alike_iterate (fun c => ?_) b
  exact (alike_accept _).then fun _ => .ite ((hitem c).map some) (alike_pure rfl)

theorem alike_commaList {x : Parser α} (hx : ReadsAlike R x) :
    ReadsAlike R (commaList x) :=
  alike_commaFold (fun _ => hx.then fun _ => alike_pure rfl) []

theorem alike_parenthesized {x : Parser α} (hx : ReadsAlike R x) :
    ReadsAlike R (parenthesized x) :=
  (alike_expect _).then fun _ => hx.then fun _ => (alike_expect _).then fun _ => alike_pure rfl

theorem alike_identifierList : ReadsAlike R identifierList :=
  alike_parenthesized (alike_commaList alike_identifier)

theorem alike_clause (word : Keyword) {x : Parser α} (hx : ReadsAlike R x) :
    ReadsAlike R (clause? word x) :=
  (alike_accept _).then fun _ => .ite (hx.map some) (alike_pure rfl)

/-- The items of a clause; none if there is no clause. -/
theorem alike_clauseItems {word : Keyword} {x : Parser (List α)} (hx : ReadsAlike R x) :
    Alike R (do pure ((← clause? word x).getD [])) (do pure ((← clause? word x).getD [])) Eq :=
  (alike_clause word hx).then fun _ => alike_pure rfl

theorem alike_foldlM {step : α → β → Parser α} (hstep : ∀ a b, ReadsAlike R (step a b))
    (items : List β) (a : α) : ReadsAlike R (items.foldlM step a) := by
  induction items generalizing a with
  | nil => exact alike_pure rfl
  | cons b items ih => exact (hstep a b).then ih

end Parser

end DialectDb
