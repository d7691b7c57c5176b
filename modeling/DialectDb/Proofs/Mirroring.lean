/-
A text with placeholders and its copy, in which values are written for
them, are read side by side. A reader mirrors another if it succeeds on
the copy whenever the other succeeds on the text, with a related result
and at the place that corresponds (`Copy.Mirrors`).

Most readers of the grammar mirror themselves, and nearly always because
their parts do: there is a rule for each reader of `Grammar.Parser` and
for each way to put readers together. A rule for a reader that looks at
the next token asks only that the reader makes nothing of a value there,
so that it declines a placeholder as it declines what is written for it.

What is known of the tokens ahead is carried along (`MirrorsFrom`). In
general it is that no query hints that begin here hold a placeholder,
which is not known directly behind a period, where a name stands.
-/
import DialectDb.Proofs.Filling
import DialectDb.Proofs.Reading
import DialectDb.Proofs.Result

namespace DialectDb

open Token DialectDb.Parser

-- ============================================================== texts

/-- A text, what is read around it, and the copy with the values of
parameters, which may have another size. -/
structure Copy where
  parameters : Parameters
  around : Surroundings
  size : Nat

/-- What is read around the copy. -/
def Copy.surroundings (k : Copy) : Surroundings :=
  { k.around with size := k.size }

/-- The text and its copy where upsert assignments are read. -/
def Copy.upserting (k : Copy) : Copy :=
  { k with around := { k.around with upsert := true } }

/-- The query hints among these tokens hold no placeholder. -/
def Unannounced (tokens : List Token) : Prop :=
  hintsPlain false tokens

/-- They hold none, given that the next token is a name. -/
def Announced (tokens : List Token) : Prop :=
  hintsPlain true tokens

theorem Announced.tail {t : Token} {tokens : List Token} (h : Announced (t :: tokens)) :
    hintsPlain (t = Sign.period) tokens :=
  (Bool.and_eq_true_iff.mp h).2

/-- Behind a token that announces no name, hints may begin. -/
theorem Announced.tail_unannounced {t : Token} {tokens : List Token}
    (h : Announced (t :: tokens)) (ht : t ≠ .sign .period) : Unannounced tokens := by
  have htail := h.tail
  rw [decide_eq_false ht] at htail
  exact htail

theorem Unannounced.announced {tokens : List Token} (h : Unannounced tokens) :
    Announced tokens := by
  cases tokens with
  | nil => rfl
  | cons t tokens => exact Bool.and_eq_true_iff.mpr ⟨rfl, (Bool.and_eq_true_iff.mp h).2⟩

namespace Copy

variable {k : Copy} {α β : Type} {P : List Token → Prop}

/-- From where the tokens have a property, a reader of the copy mirrors
one of the text: the results are related, and the tokens that are left
have another property. -/
def MirrorsFrom (k : Copy) (P : List Token → Prop) (x x' : Parser α) (R : α → α → Prop)
    (Q : α → List Token → Prop) : Prop :=
  ∀ c c' a d, P c.tokens → fill? k.parameters c.ordinals c.tokens = some c'.tokens →
    x.perform k.around c = .ok (a, d) →
    ∃ a' d', x'.perform k.surroundings c' = .ok (a', d') ∧ R a a' ∧ Q a d.tokens ∧
      fill? k.parameters d.ordinals d.tokens = some d'.tokens

/-- A reader of the copy mirrors one of the text. -/
def Mirrors (k : Copy) (x x' : Parser α) (R : α → α → Prop) : Prop :=
  k.MirrorsFrom Unannounced x x' R fun _ => Unannounced

-- ============================================================== failure

/-- A reader that never succeeds. -/
def Fails (x : Parser α) : Prop :=
  ∀ around c, ∃ e, x.perform around c = .error e

theorem fails_fault (f : Malformed) : Fails (fault f : Parser α) :=
  fun _ _ => ⟨_, rfl⟩

theorem fails_throw (e : Error) : Fails (throw e : Parser α) :=
  fun _ _ => ⟨_, rfl⟩

theorem fails_ending : Fails (ending : Parser α) := by
  intro around c
  cases around with
  | mk version failure size upsert => cases failure <;> exact ⟨_, rfl⟩

theorem fails_bind {x : Parser α} {f : α → Parser β} (h : Fails x) : Fails (x >>= f) := by
  intro around c
  obtain ⟨e, he⟩ := h around c
  refine ⟨e, ?_⟩
  show (x.perform around c >>= fun p => (f p.1).perform around p.2) = _
  rw [he]
  rfl

theorem MirrorsFrom.of_fails {x x' : Parser α} {R : α → α → Prop} {Q : α → List Token → Prop}
    (h : Fails x) : k.MirrorsFrom P x x' R Q := by
  intro c c' a d _ _ hx
  obtain ⟨e, he⟩ := h k.around c
  rw [he] at hx
  cases hx

-- ============================================================= sequence

variable {x x' : Parser α} {f f' : α → Parser β} {R : α → α → Prop} {S : β → β → Prop}
  {Q : α → List Token → Prop} {T : β → List Token → Prop}

theorem perform_map_eq_ok {g : α → β} {around : Surroundings} {c d : Cursor} {b : β} :
    (g <$> x).perform around c = .ok (b, d) ↔ ∃ a, x.perform around c = .ok (a, d) ∧ g a = b := by
  rw [← bind_pure_comp, perform_bind_eq_ok]
  constructor
  · rintro ⟨a, c₁, hx, hpure⟩
    cases hpure
    exact ⟨a, hx, rfl⟩
  · rintro ⟨a, hx, rfl⟩
    exact ⟨a, d, hx, rfl⟩

theorem MirrorsFrom.bind (hx : k.MirrorsFrom P x x' R Q)
    (hf : ∀ a a', R a a' → k.MirrorsFrom (Q a) (f a) (f' a') S T) :
    k.MirrorsFrom P (x >>= f) (x' >>= f') S T := by
  intro c c' b d hP hfill hperform
  obtain ⟨a, c₁, hx₁, hf₁⟩ := perform_bind_eq_ok.mp hperform
  obtain ⟨a', c₁', hx₁', hR, hQ, hfill₁⟩ := hx c c' a c₁ hP hfill hx₁
  obtain ⟨b', d', hf₁', hS, hT, hfill₂⟩ := hf a a' hR c₁ c₁' b d hQ hfill₁ hf₁
  exact ⟨b', d', perform_bind_eq_ok.mpr ⟨a', c₁', hx₁', hf₁'⟩, hS, hT, hfill₂⟩

/-- Where the results are the same, one of them is enough. -/
theorem MirrorsFrom.then (hx : k.MirrorsFrom P x x' Eq Q)
    (hf : ∀ a, k.MirrorsFrom (Q a) (f a) (f' a) S T) :
    k.MirrorsFrom P (x >>= f) (x' >>= f') S T :=
  hx.bind fun a _ ha => ha ▸ hf a

/-- More may be known before, and less after. -/
theorem MirrorsFrom.imp {P' : List Token → Prop} {R' : α → α → Prop}
    {Q' : α → List Token → Prop} (h : k.MirrorsFrom P x x' R Q) (hP : ∀ tokens, P' tokens → P tokens)
    (hR : ∀ a a', R a a' → R' a a') (hQ : ∀ a tokens, Q a tokens → Q' a tokens) :
    k.MirrorsFrom P' x x' R' Q' := by
  intro c c' a d hc hfill hperform
  obtain ⟨a', d', hperform', ha, hd, hfill'⟩ := h c c' a d (hP _ hc) hfill hperform
  exact ⟨a', d', hperform', hR a a' ha, hQ a _ hd, hfill'⟩

theorem MirrorsFrom.weaken {P' : List Token → Prop} (h : k.MirrorsFrom P x x' R Q)
    (hP : ∀ tokens, P' tokens → P tokens) : k.MirrorsFrom P' x x' R Q :=
  h.imp hP (fun _ _ => id) fun _ _ => id

theorem mirrorsFrom_pure {a a' : α} (h : R a a') (hQ : ∀ tokens, P tokens → Q a tokens) :
    k.MirrorsFrom P (pure a) (pure a') R Q := by
  intro c c' b d hP hfill hperform
  cases hperform
  exact ⟨a', c', rfl, h, hQ _ hP, hfill⟩

theorem mirrors_pure {a a' : α} (h : R a a') : k.Mirrors (pure a) (pure a') R :=
  mirrorsFrom_pure h fun _ => id

theorem MirrorsFrom.map {p : List Token → Prop} {f f' : α → β}
    (hx : k.MirrorsFrom P x x' R fun _ => p) (hf : ∀ a a', R a a' → S (f a) (f' a')) :
    k.MirrorsFrom P (f <$> x) (f' <$> x') S fun _ => p := by
  rw [← bind_pure_comp, ← bind_pure_comp]
  exact hx.bind fun a a' ha => mirrorsFrom_pure (hf a a' ha) fun _ => id

theorem Mirrors.map {f f' : α → β} (hx : k.Mirrors x x' R)
    (hf : ∀ a a', R a a' → S (f a) (f' a')) : k.Mirrors (f <$> x) (f' <$> x') S :=
  MirrorsFrom.map hx hf

/-- Both sides take the same branch. -/
theorem MirrorsFrom.ite {p : Prop} [Decidable p] {y y' : Parser α}
    (hx : p → k.MirrorsFrom P x x' R Q) (hy : ¬p → k.MirrorsFrom P y y' R Q) :
    k.MirrorsFrom P (if p then x else y) (if p then x' else y') R Q := by
  split
  · next h => exact hx h
  · next h => exact hy h

/-- A reader that is left out on a condition, before another. -/
theorem MirrorsFrom.when {γ : Type} {p : Prop} [Decidable p] {y y' : Parser Unit}
    {z z' : Unit → Parser γ} {S : γ → γ → Prop} (hy : k.Mirrors y y' Eq)
    (hz : k.Mirrors (z ()) (z' ()) S) :
    k.Mirrors (if p then y >>= z else z ()) (if p then y' >>= z' else z' ()) S :=
  .ite (fun _ => hy.then fun _ => hz) fun _ => hz

/-- One of two readers, before another. -/
theorem MirrorsFrom.choose {p : Prop} [Decidable p] {y y' : Parser α}
    (hx : k.Mirrors x x' R) (hy : k.Mirrors y y' R)
    (hf : ∀ a a', R a a' → k.Mirrors (f a) (f' a') S) :
    k.Mirrors (if p then x >>= f else y >>= f) (if p then x' >>= f' else y' >>= f') S :=
  .ite (fun _ => hx.bind hf) fun _ => hy.bind hf

-- =================================================== what is read around

theorem mirrorsFrom_require (condition : DialectVersion → Bool) (feature : Feature) :
    k.MirrorsFrom P (require condition feature) (require condition feature) Eq fun _ => P := by
  intro c c' a d hP hfill hperform
  have hboth : ∀ (around : Surroundings) c, (require condition feature).perform around c =
      if condition around.version then .ok ((), c)
      else .error (.unsupported around.version feature) := by
    intro around c
    show Parser.perform (if condition around.version then _ else _) around c = _
    split <;> rfl
  rw [hboth] at hperform
  split at hperform
  · next hcondition =>
      cases hperform
      refine ⟨(), c', ?_, rfl, hP, hfill⟩
      rw [hboth]
      exact if_pos hcondition
  · cases hperform

theorem mirrors_require (condition : DialectVersion → Bool) (feature : Feature) :
    k.Mirrors (require condition feature) (require condition feature) Eq :=
  mirrorsFrom_require condition feature

theorem MirrorsFrom.read {f f' : Surroundings → Parser β}
    (h : k.MirrorsFrom P (f k.around) (f' k.surroundings) S T) :
    k.MirrorsFrom P (read >>= f) (read >>= f') S T :=
  h

/-- Where a text and its copy stand does not matter. -/
theorem mirrorsFrom_peekPosition :
    k.MirrorsFrom P peekPosition peekPosition (fun _ _ => True) fun _ => P := by
  intro c c' a d hP hfill hperform
  obtain ⟨position, hposition⟩ := perform_peekPosition k.around c
  obtain ⟨position', hposition'⟩ := perform_peekPosition k.surroundings c'
  rw [hposition] at hperform
  cases hperform
  exact ⟨position', c', hposition', trivial, hP, hfill⟩

/-- What upsert assignments are read with. -/
theorem Mirrors.upserting (h : k.upserting.Mirrors x x' R) :
    k.Mirrors (withReader ({ · with upsert := true }) x) (withReader ({ · with upsert := true }) x')
      R :=
  h

-- ======================================================== single tokens

/-- A cursor with no tokens left. -/
theorem perform_next_nil (around : Surroundings) {c : Cursor} (h : c.tokens = []) :
    ∃ e, next.perform around c = .error e := by
  obtain ⟨e, he⟩ := fails_ending (α := Token) around c
  refine ⟨e, ?_⟩
  cases c with
  | mk lexemes position ordinals =>
      cases List.map_eq_nil_iff.mp h
      exact he

/-- `next` succeeds on a token, and the tokens behind it are left. -/
theorem perform_next_eq_ok {around : Surroundings} {c d : Cursor} {t : Token}
    (h : next.perform around c = .ok (t, d)) :
    c.tokens = t :: d.tokens ∧ d.ordinals = c.ordinals := by
  cases htokens : c.tokens with
  | nil =>
      obtain ⟨e, he⟩ := perform_next_nil around htokens
      rw [he] at h
      cases h
  | cons u tokens =>
      have hnext : Takes around next (u :: tokens) u tokens := takes_next
      obtain ⟨d', hd', hrest, hordinals⟩ := hnext c htokens
      rw [hd'] at h
      cases h
      rw [hrest]
      exact ⟨rfl, hordinals⟩

/-- A reader that begins with the next token is mirrored if it is for
each token that may be there, and for each placeholder with the value
that is written for it. -/
theorem mirrorsFrom_next_written {f f' : Token → Parser β}
    (hf : ∀ t, ¬t.isPlaceholder →
      k.MirrorsFrom (fun tokens => P (t :: tokens)) (f t) (f' t) S T)
    (hwritten : ∀ t placeholder v u c c' b d, t.placeholder? c.ordinals = some placeholder →
      k.parameters.lookup? placeholder = some v → v.token? = some u → P (t :: c.tokens) →
      fill? k.parameters (if t = Sign.question then c.ordinals + 1 else c.ordinals) c.tokens =
        some c'.tokens →
      (f t).perform k.around c = .ok (b, d) →
      ∃ b' d', (f' u).perform k.surroundings c' = .ok (b', d') ∧ S b b' ∧ T b d.tokens ∧
        fill? k.parameters d.ordinals d.tokens = some d'.tokens) :
    k.MirrorsFrom P (next >>= f) (next >>= f') S T := by
  intro c c' b d hP hfill hperform
  obtain ⟨t, c₁, hnext, hrest⟩ := perform_bind_eq_ok.mp hperform
  obtain ⟨htokens, hordinals⟩ := perform_next_eq_ok hnext
  rw [htokens] at hP hfill
  rw [← hordinals] at hfill
  have hcopy : ∀ u tokens, c'.tokens = u :: tokens →
      ∃ c₁', next.perform k.surroundings c' = .ok (u, c₁') ∧ c₁'.tokens = tokens := by
    intro u tokens htokens'
    have htakes : Takes k.surroundings next (u :: tokens) u tokens := takes_next
    obtain ⟨c₁', hnext', htokens₁, -⟩ := htakes c' htokens'
    exact ⟨c₁', hnext', htokens₁⟩
  by_cases ht : t.isPlaceholder
  · obtain ⟨u, rest, htokens', hu, hfill⟩ := fill?_cons hfill
    obtain ⟨placeholder, hplaceholder⟩ :=
      Option.isSome_iff_exists.mp (isPlaceholder_eq c₁.ordinals t ▸ ht)
    obtain ⟨v, hlookup, hv⟩ := written?_placeholder hplaceholder hu
    obtain ⟨c₁', hnext', rfl⟩ := hcopy u rest htokens'
    obtain ⟨b', d', hperform', hd⟩ :=
      hwritten t placeholder v u c₁ c₁' b d hplaceholder hlookup hv hP hfill hrest
    exact ⟨b', d', perform_bind_eq_ok.mpr ⟨u, c₁', hnext', hperform'⟩, hd⟩
  · obtain ⟨tokens', htokens', hfill⟩ := fill?_cons_plain ht hfill
    obtain ⟨c₁', hnext', rfl⟩ := hcopy t tokens' htokens'
    obtain ⟨b', d', hperform', hd⟩ := hf t ht c₁ c₁' b d hP hfill hrest
    exact ⟨b', d', perform_bind_eq_ok.mpr ⟨t, c₁', hnext', hperform'⟩, hd⟩

/-- Most readers make nothing of a placeholder. -/
theorem mirrorsFrom_next {f f' : Token → Parser β}
    (hf : ∀ t, ¬t.isPlaceholder →
      k.MirrorsFrom (fun tokens => P (t :: tokens)) (f t) (f' t) S T)
    (hplaceholder : ∀ t tokens, t.isPlaceholder → P (t :: tokens) → Fails (f t)) :
    k.MirrorsFrom P (next >>= f) (next >>= f') S T := by
  refine mirrorsFrom_next_written hf ?_
  intro t placeholder v u c c' b d ht _ _ hP _ hperform
  have hisPlaceholder : t.isPlaceholder := by
    rw [isPlaceholder_eq c.ordinals, ht]
    rfl
  obtain ⟨e, he⟩ := hplaceholder t _ hisPlaceholder hP k.around c
  rw [he] at hperform
  cases hperform

/-- Nor do they go on behind a period. -/
theorem mirrors_next {f f' : Token → Parser β} (hf : ∀ t, k.Mirrors (f t) (f' t) S)
    (hparameter : ∀ name, Fails (f (.parameter name))) (hquestion : Fails (f Sign.question))
    (hperiod : Fails (f Sign.period)) : k.Mirrors (next >>= f) (next >>= f') S := by
  refine mirrorsFrom_next (fun t _ => ?_) fun t _ ht _ => ?_
  · by_cases ht : t = .sign .period
    · subst ht
      exact .of_fails hperiod
    · exact (hf t).weaken fun tokens h => h.announced.tail_unannounced ht
  · unfold isPlaceholder at ht
    split at ht
    · exact hparameter _
    · exact hquestion
    · cases ht

/-- A token that is known to be next is taken, with what is known of the
tokens behind it. -/
theorem mirrorsFrom_next_known {t : Token} (ht : t.isMark) {p : List Token → Prop}
    {f f' : Token → Parser β}
    (hf : k.MirrorsFrom (fun tokens => Unannounced tokens ∧ p tokens) (f t) (f' t) S T) :
    k.MirrorsFrom (fun tokens => Unannounced tokens ∧ tokens.head? = some t ∧ p tokens.tail)
      (next >>= f) (next >>= f') S T := by
  refine mirrorsFrom_next (fun u _ => ?_) fun u tokens hu h => ?_
  · by_cases heq : u = t
    · subst heq
      exact hf.weaken fun tokens h =>
        ⟨h.1.announced.tail_unannounced (isMark_iff.mp ht).2, h.2.2⟩
    · rintro c c' b d ⟨-, hhead, -⟩
      exact absurd (Option.some.inj hhead) heq
  · cases h.2.1
    exact absurd hu (not_isPlaceholder_of_isMark ht)

theorem mirrors_next_head {t : Token} (ht : t.isMark) {f f' : Token → Parser β}
    (hf : k.Mirrors (f t) (f' t) S) :
    k.MirrorsFrom (fun tokens => Unannounced tokens ∧ tokens.head? = some t) (next >>= f)
      (next >>= f') S fun _ => Unannounced :=
  (mirrorsFrom_next_known ht (p := fun _ => True) (hf.weaken fun _ => And.left)).weaken
    fun _ h => ⟨h.1, h.2, trivial⟩

theorem mirrorsFrom_expect {t : Token} (ht : ¬t.isPlaceholder) :
    k.MirrorsFrom P (expect t) (expect t) Eq fun _ tokens => P (t :: tokens) := by
  refine mirrorsFrom_next (fun u _ => ?_) fun u _ hu _ => ?_
  · refine .ite (fun heq => ?_) fun _ => .of_fails (fails_fault _)
    subst heq
    exact mirrorsFrom_pure rfl fun _ => id
  · have hne : u ≠ t := fun heq => ht (heq ▸ hu)
    rw [if_neg hne]
    exact fails_fault _

theorem mirrors_expect {t : Token} (ht : t.isMark) :
    k.Mirrors (expect t) (expect t) Eq :=
  (mirrorsFrom_expect (not_isPlaceholder_of_isMark ht)).imp (fun _ => id) (fun _ _ => id)
    fun _ _ h => h.announced.tail_unannounced (isMark_iff.mp ht).2

/-- Where NULL is expected, no placeholder can stand for it. -/
theorem mirrors_expect_null : k.Mirrors (expect Keyword.NULL) (expect Keyword.NULL) Eq :=
  (mirrorsFrom_expect (t := .keyword .NULL) Bool.false_ne_true).imp (fun _ => id) (fun _ _ => id)
    fun _ _ h => h.announced.tail_unannounced nofun

theorem nameOf?_isSome {t : Token} {name : String} (h : nameOf? t = some name) :
    ¬t.isPlaceholder ∧ t ≠ .sign .period := by
  unfold nameOf? at h
  split at h
  · exact ⟨Bool.false_ne_true, nofun⟩
  · exact ⟨Bool.false_ne_true, nofun⟩
  · cases h

/-- A name may stand anywhere. -/
theorem mirrorsFrom_identifier :
    k.MirrorsFrom Announced identifier identifier Eq fun _ => Unannounced := by
  refine mirrorsFrom_next (fun t _ => ?_) fun t _ ht _ => ?_
  · cases hname : nameOf? t with
    | none => exact .of_fails (fails_fault _)
    | some name =>
        exact (mirrors_pure rfl).weaken fun tokens h =>
          h.tail_unannounced (nameOf?_isSome hname).2
  · cases hname : nameOf? t with
    | none => exact fails_fault _
    | some name => exact absurd ht (nameOf?_isSome hname).1

theorem mirrors_identifier : k.Mirrors identifier identifier Eq :=
  mirrorsFrom_identifier.weaken fun _ => Unannounced.announced

-- ====================================================== looking ahead

/-- At a place of a text and its copy the tokens are the same, or a
value stands for a placeholder. -/
def Seen (o o' : Option Token) : Prop :=
  o' = o ∨ ∃ t u, o = some t ∧ o' = some u ∧ t.isPlaceholder ∧ u.isValue

theorem seen_head {ordinal : Nat} {tokens filled : List Token}
    (h : fill? k.parameters ordinal tokens = some filled) : Seen tokens.head? filled.head? := by
  cases tokens with
  | nil =>
      cases h
      exact .inl rfl
  | cons t tokens =>
      by_cases ht : t.isPlaceholder
      · obtain ⟨u, rest, rfl, hu, -⟩ := fill?_cons h
        obtain ⟨placeholder, hplaceholder⟩ :=
          Option.isSome_iff_exists.mp (isPlaceholder_eq ordinal t ▸ ht)
        obtain ⟨v, -, hv⟩ := written?_placeholder hplaceholder hu
        exact .inr ⟨t, u, rfl, rfl, ht, (Value.isValue_of_token? hv).1⟩
      · obtain ⟨rest, rfl, -⟩ := fill?_cons_plain ht h
        exact .inl rfl

theorem seen_second {ordinal : Nat} {tokens filled : List Token}
    (h : fill? k.parameters ordinal tokens = some filled) : Seen tokens[1]? filled[1]? := by
  cases tokens with
  | nil =>
      cases h
      exact .inl rfl
  | cons t tokens =>
      obtain ⟨u, rest, rfl, -, hrest⟩ := fill?_cons h
      rw [List.getElem?_cons_succ, List.getElem?_cons_succ, ← List.head?_eq_getElem?,
        ← List.head?_eq_getElem?]
      exact seen_head hrest

/-- A reader that treats all values alike is mirrored if it is for what
is seen. -/
theorem MirrorsFrom.of_seen {o o' : Option Token} (hseen : Seen o o')
    {f f' : Option Token → Parser α} {y y' : Parser α} (hvalue : ∀ t, t.isValue → f (some t) = y)
    (hvalue' : ∀ t, t.isValue → f' (some t) = y') (hy : k.MirrorsFrom P y y' R Q)
    (hf : k.MirrorsFrom P (f o) (f' o) R Q) : k.MirrorsFrom P (f o) (f' o') R Q := by
  rcases hseen with rfl | ⟨t, u, rfl, rfl, ht, hu⟩
  · exact hf
  · rw [hvalue t (isValue_of_isPlaceholder ht), hvalue' u hu]
    exact hy

/-- If the next token can be seen in the text, it can in the copy. -/
theorem perform_peek_copy {c c' d : Cursor} {o : Option Token}
    (hfill : fill? k.parameters c.ordinals c.tokens = some c'.tokens)
    (h : peek.perform k.around c = .ok (o, d)) :
    peek.perform k.surroundings c' = .ok (c'.tokens.head?, c') := by
  obtain ⟨-, -, hend⟩ := perform_peek_eq_ok.mp h
  refine perform_peek_eq_ok.mpr ⟨rfl, rfl, fun hnil => hend ?_⟩
  rw [← List.length_eq_zero_iff, ← fill?_length hfill, hnil]
  rfl

/-- A reader that looks at the next token is mirrored if it is for what
is seen there. -/
theorem mirrorsFrom_peek_seen {f f' : Option Token → Parser β}
    (hf : ∀ o o', Seen o o' →
      k.MirrorsFrom (fun tokens => P tokens ∧ tokens.head? = o) (f o) (f' o') S T) :
    k.MirrorsFrom P (peek >>= f) (peek >>= f') S T := by
  intro c c' b d hP hfill hperform
  obtain ⟨o, c₁, hpeek, hrest⟩ := perform_bind_eq_ok.mp hperform
  have hpeek' := perform_peek_copy hfill hpeek
  obtain ⟨rfl, rfl, -⟩ := perform_peek_eq_ok.mp hpeek
  rw [perform_bind hpeek']
  exact hf _ _ (seen_head hfill) c₁ c' b d ⟨hP, rfl⟩ hfill hrest

/-- It is if it treats all values alike, and is mirrored for whatever
else may be there. -/
theorem mirrorsFrom_peek {f f' : Option Token → Parser β} (y y' : Parser β)
    (hvalue : ∀ t, t.isValue → f (some t) = y) (hvalue' : ∀ t, t.isValue → f' (some t) = y')
    (hy : k.MirrorsFrom P y y' S T)
    (hf : ∀ o, k.MirrorsFrom (fun tokens => P tokens ∧ tokens.head? = o) (f o) (f' o) S T) :
    k.MirrorsFrom P (peek >>= f) (peek >>= f') S T :=
  mirrorsFrom_peek_seen fun o _ hseen =>
    .of_seen hseen hvalue hvalue' (hy.weaken fun _ => And.left) (hf o)

/-- Likewise for the token behind it. -/
theorem mirrorsFrom_peekSecond {f f' : Option Token → Parser β} (y y' : Parser β)
    (hvalue : ∀ t, t.isValue → f (some t) = y) (hvalue' : ∀ t, t.isValue → f' (some t) = y')
    (hy : k.MirrorsFrom P y y' S T)
    (hf : ∀ o, k.MirrorsFrom (fun tokens => P tokens ∧ tokens[1]? = o) (f o) (f' o) S T) :
    k.MirrorsFrom P (peekSecond >>= f) (peekSecond >>= f') S T := by
  have hpeek : ∀ around (c : Cursor), peekSecond.perform around c = .ok (c.tokens[1]?, c) := by
    intro around c
    unfold Cursor.tokens
    rw [List.getElem?_map]
    rfl
  intro c c' b d hP hfill hperform
  rw [perform_bind (hpeek _ _)] at hperform
  rw [perform_bind (hpeek _ _)]
  have hboth := MirrorsFrom.of_seen (seen_second hfill) hvalue hvalue'
    (hy.weaken fun _ => And.left) (hf c.tokens[1]?)
  exact hboth c c' b d ⟨hP, rfl⟩ hfill hperform

/-- A test whether the next token is a certain one. -/
theorem mirrorsFrom_ifPeek {t : Token} (ht : t.isValue = false) {y y' : Parser α}
    (hx : k.MirrorsFrom (fun tokens => P tokens ∧ tokens.head? = some t) x x' R Q)
    (hy : k.MirrorsFrom P y y' R Q) :
    k.MirrorsFrom P (do if (← peek) = some t then x else y)
      (do if (← peek) = some t then x' else y') R Q := by
  have hother : ∀ u, u.isValue → ¬some u = some t := by
    rintro u hu ⟨⟩
    rw [ht] at hu
    cases hu
  refine mirrorsFrom_peek y y' (fun u hu => if_neg (hother u hu)) (fun u hu => if_neg (hother u hu)) hy
    fun o => .ite (fun heq => ?_) fun _ => hy.weaken fun _ => And.left
  subst heq
  exact hx

/-- A token that is not known stays. -/
theorem perform_nextMap_declines {f : Token → Option α} {around : Surroundings} {c : Cursor}
    (h : ∀ t, c.tokens.head? = some t → f t = none) :
    (nextMap? f).perform around c = .ok (none, c) := by
  cases c with
  | mk lexemes position ordinals =>
      cases lexemes with
      | nil => rfl
      | cons lexeme lexemes =>
          unfold nextMap?
          rw [perform_bind rfl]
          dsimp only
          rw [h lexeme.token rfl]
          rfl

/-- A reader that takes the next token only if it knows it mirrors
itself, if it knows no value where a placeholder may be. -/
theorem mirrorsFrom_nextMap {f : Token → Option α} {Q : Option α → List Token → Prop}
    (hvalue : ∀ t tokens, t.isPlaceholder → P (t :: tokens) → ∀ u, u.isValue → f u = none)
    (hsome : ∀ t a tokens, f t = some a → P (t :: tokens) → Q (some a) tokens)
    (hnone : ∀ tokens, P tokens → Q none tokens) :
    k.MirrorsFrom P (nextMap? f) (nextMap? f) Eq Q := by
  intro c c' o d hP hfill hperform
  by_cases hknown : ∀ t, c.tokens.head? = some t → f t = none
  · rw [perform_nextMap_declines hknown] at hperform
    cases hperform
    refine ⟨none, c', perform_nextMap_declines ?_, rfl, hnone _ hP, hfill⟩
    rcases seen_head hfill with hsame | ⟨t, u, ht, hu, hplaceholder, huvalue⟩
    · rw [hsame]
      exact hknown
    · obtain ⟨tokens, htokens⟩ := List.head?_eq_some_iff.mp ht
      rw [hu]
      rintro _ ⟨⟩
      exact hvalue t tokens hplaceholder (htokens ▸ hP) u huvalue
  · push Not at hknown
    obtain ⟨t, ht, hf⟩ := hknown
    obtain ⟨a, ha⟩ := Option.ne_none_iff_exists'.mp hf
    obtain ⟨tokens, htokens⟩ := List.head?_eq_some_iff.mp ht
    rw [htokens] at hfill hP
    have hplain : ¬t.isPlaceholder := fun h =>
      hf (hvalue t tokens h hP t (isValue_of_isPlaceholder h))
    obtain ⟨tokens', htokens', hfill⟩ := fill?_cons_plain hplain hfill
    have htakes : Takes k.around (nextMap? f) (t :: tokens) (some a) tokens := takes_nextMap ha
    have htakes' : Takes k.surroundings (nextMap? f) (t :: tokens') (some a) tokens' :=
      takes_nextMap ha
    obtain ⟨c₁, hc₁, hrest, hordinals⟩ := htakes c htokens
    obtain ⟨c₁', hc₁', hrest', -⟩ := htakes' c' htokens'
    rw [hc₁] at hperform
    cases hperform
    refine ⟨some a, c₁', hc₁', rfl, ?_, ?_⟩
    · rw [hrest]
      exact hsome t a tokens ha hP
    · rw [hrest, hrest', hordinals]
      exact hfill

/-- A reader that knows only tokens after which hints may begin. What it
makes of them has a property. -/
theorem mirrors_nextMap {f : Token → Option α} {p : α → Prop}
    (hvalue : ∀ t, t.isValue → f t = none)
    (hsome : ∀ t a, f t = some a → t ≠ .sign .period ∧ p a) :
    k.Mirrors (nextMap? f) (nextMap? f) fun o o' => o = o' ∧ ∀ a, o = some a → p a := by
  have hbase : k.MirrorsFrom Unannounced (nextMap? f) (nextMap? f) Eq fun o tokens =>
      Unannounced tokens ∧ ∀ a, o = some a → p a := by
    refine mirrorsFrom_nextMap (fun _ _ _ _ => hvalue) (fun t a tokens ha h => ?_)
      fun tokens h => ⟨h, nofun⟩
    refine ⟨h.announced.tail_unannounced (hsome t a ha).1, ?_⟩
    rintro _ ⟨⟩
    exact (hsome t a ha).2
  intro c c' o d hP hfill hperform
  obtain ⟨o', d', hperform', rfl, ⟨hQ, hp⟩, hfill'⟩ := hbase c c' o d hP hfill hperform
  exact ⟨o, d', hperform', ⟨rfl, hp⟩, hQ, hfill'⟩

theorem mirrorsFrom_accept {t : Token} (ht : ¬t.isValue) {T : Bool → List Token → Prop}
    (htrue : ∀ tokens, P (t :: tokens) → T true tokens)
    (hfalse : ∀ tokens, P tokens → T false tokens) :
    k.MirrorsFrom P (accept t) (accept t) Eq T := by
  have hbase : k.MirrorsFrom P (nextMap? fun u => if u = t then some () else none)
      (nextMap? fun u => if u = t then some () else none) Eq fun o => T o.isSome := by
    refine mirrorsFrom_nextMap (fun _ _ _ _ u hu => if_neg ?_) (fun u a tokens ha hP => ?_) hfalse
    · rintro rfl
      exact ht hu
    · split at ha
      · next heq =>
          subst heq
          exact htrue tokens hP
      · cases ha
  exact hbase.then fun o => mirrorsFrom_pure rfl fun _ => id

theorem mirrors_accept {t : Token} (ht : t.isMark) :
    k.Mirrors (accept t) (accept t) Eq := by
  obtain ⟨hvalue, hperiod⟩ := isMark_iff.mp ht
  exact mirrorsFrom_accept (Bool.eq_false_iff.mp hvalue)
    (fun _ h => h.announced.tail_unannounced hperiod) fun _ => id

/-- Behind a period stands a name. -/
theorem mirrorsFrom_accept_period :
    k.MirrorsFrom Unannounced (accept Sign.period) (accept Sign.period) Eq
      fun taken => if taken then Announced else Unannounced :=
  mirrorsFrom_accept (t := .sign .period) Bool.false_ne_true (fun _ h => h.announced.tail)
    fun _ => id

theorem mirrors_skipOver {t : Token} (ht : t.isMark) :
    k.Mirrors (skipOver t) (skipOver t) Eq :=
  (mirrors_accept ht).then fun _ => mirrors_pure rfl

-- =========================================================== repetition

/-- A repetition is mirrored if each round is. What is known before a
round may depend on how many may follow, since a round takes a token. -/
theorem mirrorsFrom_iterateWithin {P : Nat → List Token → Prop} {T : List Token → Prop}
    {step step' : α → Parser (Option α)}
    (hstep : ∀ count a a', R a a' → k.MirrorsFrom (P (count + 1)) (step a) (step' a')
      (Option.Rel R) fun next tokens => if next.isSome then P count tokens else T tokens)
    (hend : ∀ tokens, P 0 tokens → T tokens) (count : Nat) {a a' : α} (ha : R a a') :
    k.MirrorsFrom (P count) (iterateWithin step count a) (iterateWithin step' count a') R
      fun _ => T := by
  induction count generalizing a a' with
  | zero => exact mirrorsFrom_pure ha hend
  | succ count ih =>
      refine (hstep count a a' ha).bind fun o o' ho => ?_
      cases ho with
      | none => exact mirrorsFrom_pure ha fun _ => id
      | some hb => exact ih hb

theorem length_lexemes {c c' : Cursor}
    (h : fill? k.parameters c.ordinals c.tokens = some c'.tokens) :
    c'.lexemes.length = c.lexemes.length := by
  have hlength := fill?_length h
  unfold Cursor.tokens at hlength
  rwa [List.length_map, List.length_map] at hlength

theorem mirrorsFrom_iterate {P : Nat → List Token → Prop} {T : List Token → Prop}
    {step step' : α → Parser (Option α)}
    (hstep : ∀ count a a', R a a' → k.MirrorsFrom (P (count + 1)) (step a) (step' a')
      (Option.Rel R) fun next tokens => if next.isSome then P count tokens else T tokens)
    (hend : ∀ tokens, P 0 tokens → T tokens) {a a' : α} (ha : R a a') :
    k.MirrorsFrom (fun tokens => P (tokens.length + 1) tokens) (iterate step a)
      (iterate step' a') R fun _ => T := by
  intro c c' b d hP hfill hperform
  have hlength : c.tokens.length = c.lexemes.length := List.length_map _
  rw [hlength] at hP
  have hboth := mirrorsFrom_iterateWithin hstep hend (c.lexemes.length + 1) ha c c' b d hP hfill
    hperform
  rw [← length_lexemes hfill] at hboth
  exact hboth

theorem mirrors_iterate {step step' : α → Parser (Option α)}
    (hstep : ∀ a a', R a a' → k.Mirrors (step a) (step' a') (Option.Rel R)) {a a' : α}
    (ha : R a a') : k.Mirrors (iterate step a) (iterate step' a') R := by
  refine mirrorsFrom_iterate (P := fun _ => Unannounced) (fun _ a a' ha => ?_) (fun _ => id) ha
  refine (hstep a a' ha).imp (fun _ => id) (fun _ _ => id) fun next _ h => ?_
  cases next <;> exact h

theorem mirrors_commaFold {item item' : α → Parser α}
    (hitem : ∀ a a', R a a' → k.Mirrors (item a) (item' a') R) {a a' : α} (ha : R a a') :
    k.Mirrors (commaFold item a) (commaFold item' a') R := by
  refine (hitem a a' ha).bind fun b b' hb => mirrors_iterate (fun c c' hc => ?_) hb
  refine .then (mirrors_accept rfl) fun taken => .ite (fun _ => ?_) fun _ => ?_
  · exact (hitem c c' hc).map fun _ _ => Option.Rel.some
  · exact mirrors_pure .none

theorem mirrors_commaList {item item' : Parser α} (hitem : k.Mirrors item item' R) :
    k.Mirrors (commaList item) (commaList item') (List.Forall₂ R) := by
  refine mirrors_commaFold (fun items items' hitems => ?_) .nil
  exact hitem.bind fun a a' ha => mirrors_pure (List.rel_append hitems (.cons ha .nil))

theorem mirrors_commaList_eq {item item' : Parser α} (hitem : k.Mirrors item item' Eq) :
    k.Mirrors (commaList item) (commaList item') Eq :=
  (mirrors_commaList hitem).imp (fun _ => id) (fun _ _ => List.forall₂_eq_eq_eq ▸ id) fun _ _ => id

theorem mirrors_foldlM {γ : Type} {f f' : α → γ → Parser α} {items : List γ}
    (hf : ∀ a a' item, R a a' → k.Mirrors (f a item) (f' a' item) R) {a a' : α} (ha : R a a') :
    k.Mirrors (items.foldlM f a) (items.foldlM f' a') R := by
  induction items generalizing a a' with
  | nil => exact mirrors_pure ha
  | cons item rest ih => exact .bind (hf a a' item ha) fun _ _ => ih

theorem mirrors_parenthesized (hx : k.Mirrors x x' R) :
    k.Mirrors (parenthesized x) (parenthesized x') R := by
  refine .then (mirrors_expect rfl) fun _ => ?_
  refine hx.bind fun a a' ha => ?_
  exact .then (mirrors_expect rfl) fun _ => mirrors_pure ha

theorem mirrors_identifierList : k.Mirrors identifierList identifierList Eq :=
  mirrors_parenthesized (mirrors_commaList_eq mirrors_identifier)

theorem mirrors_clause {word : Keyword} (ht : (Token.keyword word).isMark)
    (hx : k.Mirrors x x' R) :
    k.Mirrors (clause? word x) (clause? word x') (Option.Rel R) := by
  refine (mirrors_accept ht).then fun taken => .ite (fun _ => ?_) fun _ => ?_
  · exact hx.map fun _ _ => Option.Rel.some
  · exact mirrors_pure .none

theorem mirrors_clause_eq {word : Keyword} (ht : (Token.keyword word).isMark)
    (hx : k.Mirrors x x' Eq) : k.Mirrors (clause? word x) (clause? word x') Eq := by
  refine (mirrors_clause ht hx).imp (fun _ => id) (fun _ _ h => ?_) fun _ _ => id
  cases h with
  | none => rfl
  | some h => exact congrArg some h

end Copy

end DialectDb
