/-
A text and another spelling of it are read side by side. In the other
spelling more may stand behind the end of the text, and a column of the
row that an upsert could not insert may be written `excluded.c` where the
text has `VALUES(c)`. A reader follows another if it succeeds on the other
spelling whenever the other succeeds on the text, with the same result
and at the place that corresponds (`Respelling.Follows`).

The two part where the text is at its end or at VALUES. A reader that
only looks whether something stands there may then go on in the other
spelling and not in the text: an alias, for one, can be `excluded` and
cannot be VALUES. That is harmless, since nothing takes VALUES but an
operand, so that the text cannot be read past such a dead end. Each
reader therefore says where it may stop at one, and a reader that is used
behind such a reader has to stay there.

There is a rule for each reader of `Grammar.Parser` and for each way to
put readers together. Levels of nesting are bounded by the tokens that
are left in the other spelling, and so is all that is said here.
-/
import DialectDb.Proofs.Mirroring
import DialectDb.Proofs.Operators

namespace DialectDb

open DialectDb.Parser

-- ========================================================== spellings

/-- What may stand behind a text: nothing that an expression goes on
with. -/
def enders : List Token :=
  [.keyword .LIMIT, .keyword .OFFSET, .keyword .ROWS, .keyword .ON, .sign .comma]

/-- A text and another spelling of it. -/
structure Respelling where
  /-- What is read around the text. -/
  around : Surroundings
  /-- The size of the other spelling. -/
  size : Nat
  /-- What stands behind the end of the text in the other spelling. -/
  tail : List Token
  /-- Whether `excluded.c` may stand for `VALUES(c)`. -/
  proposes : Bool
  /-- How many more placeholders stand before the other spelling. -/
  ahead : Nat
  complete : around.failure = none
  upserts : proposes = true → around.upsert = true
  hints : around.version.dialect.hints ≠ .table
  ends : ∀ t, tail.head? = some t → t ∈ enders

/-- A place that a text cannot be read past, except by an operand. -/
def DeadEnd (tokens : List Token) : Prop :=
  ∀ t, tokens.head? = some t → t = .keyword .VALUES

/-- How a reader stops: whether that may be at a dead end, and how many
tokens it has taken at least. -/
structure Exit where
  deadEnd : Bool
  taken : Nat

namespace Exit

variable {α : Type}

/-- What is left to be done behind a reader that has taken some tokens. -/
@[reducible]
def behind (e : Exit) (taken : Nat) : Exit :=
  ⟨e.deadEnd, e.taken - taken⟩

/-- A reader that gives something takes a token, and goes on behind it. -/
def found (edge : Bool) : Option α → Exit
  | some _ => ⟨false, 1⟩
  | none => ⟨edge, 0⟩

/-- A round of a repetition that does not end it takes a token. -/
def round (edge : Bool) : Option α → Exit
  | some _ => ⟨edge, 1⟩
  | none => ⟨edge, 0⟩

end Exit

namespace Respelling

variable {k : Respelling} {α β : Type} {c c' d d' : Cursor}

/-- What is read around the other spelling. -/
def surroundings (k : Respelling) : Surroundings :=
  { k.around with size := k.size }

theorem complete' : k.surroundings.failure = none :=
  k.complete

/-- The tokens of a text are those of the other spelling. -/
inductive Spells (k : Respelling) : List Token → List Token → Prop
  | stop : k.Spells [] k.tail
  | same (t : Token) {tokens tokens' : List Token} (h : k.Spells tokens tokens') :
      k.Spells (t :: tokens) (t :: tokens')
  | proposed (hproposes : k.proposes = true) (column : Token) {tokens tokens' : List Token}
      (h : k.Spells tokens tokens') :
      k.Spells (.keyword .VALUES :: .sign .openParen :: column :: .sign .closeParen :: tokens)
        (.ident "excluded" :: .sign .period :: column :: tokens')

/-- A place of a text and the one of the other spelling. -/
structure Synced (k : Respelling) (c c' : Cursor) : Prop where
  spells : k.Spells c.tokens c'.tokens
  ordinals : c'.ordinals = c.ordinals + k.ahead
  counted : k.ahead = 0 ∨ .sign .question ∉ c.tokens

/-- From one pair of places to another, with some tokens taken. -/
structure Advances (k : Respelling) (taken : Nat) (c c' d d' : Cursor) : Prop where
  synced : k.Synced d d'
  length : d.tokens.length + taken ≤ c.tokens.length
  length' : d'.tokens.length + taken ≤ c'.tokens.length

/-- What is next where the two spellings part. -/
def Parted (k : Respelling) (o o' : Option Token) : Prop :=
  o = none ∧ o' = k.tail.head? ∨
    k.proposes = true ∧ o = some (.keyword .VALUES) ∧ o' = some (.ident "excluded")

/-- A token with which the other spelling parts from the text. -/
def Parting (k : Respelling) (t : Token) : Prop :=
  k.tail.head? = some t ∨ k.proposes = true ∧ t = .ident "excluded"

/-- Nothing is proposed, and what stands behind the text is one of some
tokens. -/
structure Ends (k : Respelling) (heads : List Token) : Prop where
  plain : k.proposes = false
  head : ∀ t, k.tail.head? = some t → t ∈ heads

theorem Ends.imp {heads heads' : List Token} (h : k.Ends heads) (himp : heads ⊆ heads') :
    k.Ends heads' :=
  ⟨h.plain, fun t ht => himp (h.head t ht)⟩

theorem Ends.mem {heads : List Token} (h : k.Ends heads) {t : Token} (ht : k.Parting t) :
    t ∈ heads := by
  rcases ht with hhead | ⟨hproposes, -⟩
  · exact h.head t hhead
  · rw [h.plain] at hproposes
    cases hproposes

theorem Ends.not_parting {heads : List Token} (h : k.Ends heads) {t : Token} (ht : t ∉ heads) :
    ¬k.Parting t :=
  fun hparting => ht (h.mem hparting)

/-- The spellings part with few tokens. -/
theorem Parting.mem {t : Token} (h : k.Parting t) : t ∈ .ident "excluded" :: enders := by
  rcases h with hhead | ⟨-, rfl⟩
  · exact List.mem_cons_of_mem _ (k.ends t hhead)
  · exact List.mem_cons_self

theorem Parting.eq {t : Token} (h : k.Parting t) :
    t = .ident "excluded" ∨ t = .keyword .LIMIT ∨ t = .keyword .OFFSET ∨ t = .keyword .ROWS ∨
      t = .keyword .ON ∨ t = .sign .comma := by
  simpa [enders] using h.mem

theorem not_parting {t : Token} (ht : t ∉ .ident "excluded" :: enders) : ¬k.Parting t :=
  fun h => ht h.mem

theorem Parted.parting {o o' : Option Token} (h : k.Parted o o') {t : Token} (ht : o' = some t) :
    k.Parting t := by
  rcases h with ⟨-, rfl⟩ | ⟨hproposes, -, rfl⟩
  · exact .inl ht
  · exact .inr ⟨hproposes, (Option.some.inj ht).symm⟩

theorem Parted.deadEnd {o o' : Option Token} (h : k.Parted o o') {t : Token} (ht : o = some t) :
    t = .keyword .VALUES := by
  rcases h with ⟨rfl, -⟩ | ⟨-, rfl, -⟩
  · cases ht
  · exact (Option.some.inj ht).symm

/-- Where nothing is proposed, the spellings part at the end of the
text. -/
theorem Ends.parted {heads : List Token} (h : k.Ends heads) {o o' : Option Token}
    (hparted : k.Parted o o') : o = none ∧ ∀ t, o' = some t → t ∈ heads := by
  rcases hparted with ⟨rfl, rfl⟩ | ⟨hproposes, -⟩
  · exact ⟨rfl, h.head⟩
  · rw [h.plain] at hproposes
    cases hproposes

/-- The next token is the same, or the spellings part. -/
theorem Spells.heads {tokens tokens' : List Token} (h : k.Spells tokens tokens') :
    (∃ t rest rest', tokens = t :: rest ∧ tokens' = t :: rest' ∧ k.Spells rest rest') ∨
      k.Parted tokens.head? tokens'.head? := by
  cases h with
  | stop => exact .inr (.inl ⟨rfl, rfl⟩)
  | same t h => exact .inl ⟨t, _, _, rfl, rfl, h⟩
  | proposed hproposes column h => exact .inr (.inr ⟨hproposes, rfl, rfl⟩)

/-- Any token but VALUES stands in both. -/
theorem Spells.cons {t : Token} {tokens tokens' : List Token} (h : k.Spells (t :: tokens) tokens')
    (ht : t ≠ .keyword .VALUES) : ∃ rest, tokens' = t :: rest ∧ k.Spells tokens rest := by
  cases h with
  | same t h => exact ⟨_, rfl, h⟩
  | proposed hproposes column h => exact absurd rfl ht

/-- So does any with which they do not part. -/
theorem Spells.of_cons {t : Token} {tokens tokens' : List Token}
    (h : k.Spells tokens (t :: tokens')) (ht : ¬k.Parting t) :
    ∃ rest, tokens = t :: rest ∧ k.Spells rest tokens' := by
  rcases h.heads with ⟨u, rest, rest', rfl, heq, hrest⟩ | hparted
  · cases heq
    exact ⟨rest, rfl, hrest⟩
  · exact absurd (hparted.parting rfl) ht

/-- In another spelling of a text that only goes on, its tail stands
behind the text. -/
theorem spells_append (k : Respelling) (tokens : List Token) :
    k.Spells tokens (tokens ++ k.tail) := by
  induction tokens with
  | nil => exact .stop
  | cons t tokens ih => exact .same t ih

/-- At the end of the text the tail is left. -/
theorem Spells.eq_tail {tokens' : List Token} (h : k.Spells [] tokens') : tokens' = k.tail := by
  cases h
  rfl

/-- Where tokens have been taken, the places correspond as before. -/
theorem Synced.behind (h : k.Synced c c') (hsuffix : d.tokens <:+ c.tokens)
    (hspells : k.Spells d.tokens d'.tokens) (hordinals : d.ordinals = c.ordinals)
    (hordinals' : d'.ordinals = c'.ordinals) : k.Synced d d' where
  spells := hspells
  ordinals := by rw [hordinals, hordinals', h.ordinals]
  counted := h.counted.imp_right fun hnone hmem => hnone (hsuffix.subset hmem)

theorem Synced.advances (h : k.Synced c c') : k.Advances 0 c c' c c' :=
  ⟨h, Nat.le_refl _, Nat.le_refl _⟩

theorem Advances.trans {m n : Nat} {e e' : Cursor} (h : k.Advances m c c' d d')
    (hrest : k.Advances n d d' e e') : k.Advances (m + n) c c' e e' where
  synced := hrest.synced
  length := by
    have := h.length
    have := hrest.length
    omega
  length' := by
    have := h.length'
    have := hrest.length'
    omega

theorem Advances.weaken {m n : Nat} (h : k.Advances m c c' d d') (hle : n ≤ m) :
    k.Advances n c c' d d' where
  synced := h.synced
  length := by
    have := h.length
    omega
  length' := by
    have := h.length'
    omega

-- ============================================================ following

/-- From a dead end, the reader gets to dead ends only. -/
def Strays (k : Respelling) (x : Parser α) (S : α → Exit) : Prop :=
  ∀ c a d, DeadEnd c.tokens → x.perform k.around c = .ok (a, d) →
    (S a).deadEnd = true ∧ DeadEnd d.tokens

/-- Where the reader of the text has succeeded, so does the one of the
other spelling, with the same result, unless that was at a dead end. -/
def Keeps (k : Respelling) (x' : Parser α) (S : α → Exit) (c c' : Cursor) (a : α) (d : Cursor) :
    Prop :=
  (∃ d', x'.perform k.surroundings c' = .ok (a, d') ∧ k.Advances (S a).taken c c' d d') ∨
    ((S a).deadEnd = true ∧ DeadEnd d.tokens)

/-- As long as the other spelling has fewer tokens than a bound, its
reader succeeds where the one of the text does. If both may begin at a
dead end, the reader of the text stops at one as well. -/
structure Follows (k : Respelling) (bound : Nat) (edge : Bool) (x x' : Parser α) (S : α → Exit) :
    Prop where
  keeps : ∀ {c c' a d}, c'.tokens.length < bound → k.Synced c c' →
    x.perform k.around c = .ok (a, d) → k.Keeps x' S c c' a d
  strays : edge = true → k.Strays x S

variable {m n : Nat} {edge : Bool} {x x' y y' : Parser α} {f f' : α → Parser β} {S : α → Exit}
  {T : β → Exit}

theorem Keeps.of_perform_eq {a : α} (h : k.Keeps y' S c c' a d)
    (heq : x'.perform k.surroundings c' = y'.perform k.surroundings c') :
    k.Keeps x' S c c' a d := by
  unfold Keeps
  rw [heq]
  exact h

/-- What is read behind a first reader. -/
theorem Keeps.behind {γ : Type} {z' : Parser γ} {f' : γ → Parser β} {a : γ} {e e' : Cursor} {b : β}
    {taken : Nat} (hfirst : z'.perform k.surroundings c' = .ok (a, e'))
    (hmid : k.Advances taken c c' e e')
    (h : k.Keeps (f' a) (fun b => (T b).behind taken) e e' b d) :
    k.Keeps (z' >>= f') T c c' b d := by
  refine h.imp_left ?_
  rintro ⟨d', hrest, hd⟩
  refine ⟨d', perform_bind_eq_ok.mpr ⟨a, e', hfirst, hrest⟩, ?_⟩
  exact (hmid.trans hd).weaken (by simp only; omega)

/-- Less may be asked for. -/
theorem Follows.weaken {edge' : Bool} {S' : α → Exit} (h : k.Follows m edge x x' S) (hle : n ≤ m)
    (hedge : edge' = true → edge = true)
    (hS : ∀ a, ((S a).deadEnd = true → (S' a).deadEnd = true) ∧ (S' a).taken ≤ (S a).taken) :
    k.Follows n edge' x x' S' where
  keeps hlt hsynced hx := by
    rcases h.keeps (Nat.lt_of_lt_of_le hlt hle) hsynced hx with ⟨d', hx', hd⟩ | ⟨hdead, hd⟩
    · exact .inl ⟨d', hx', hd.weaken (hS _).2⟩
    · exact .inr ⟨(hS _).1 hdead, hd⟩
  strays hyes c a d hc hx := by
    obtain ⟨hdead, hd⟩ := h.strays (hedge hyes) c a d hc hx
    exact ⟨(hS a).1 hdead, hd⟩

theorem Follows.mono (h : k.Follows m edge x x' S) (hle : n ≤ m) : k.Follows n edge x x' S :=
  h.weaken hle id fun _ => ⟨id, Nat.le_refl _⟩

/-- What is never asked to begin at a dead end. -/
theorem Follows.inside (h : k.Follows m edge x x' S) : k.Follows m false x x' S :=
  h.weaken (Nat.le_refl m) nofun fun _ => ⟨id, Nat.le_refl _⟩

/-- A reader that does not stop at a dead end may be taken for one that
does. -/
theorem Follows.loosen {e : Bool} {taken taken' : Nat}
    (h : k.Follows m edge x x' fun _ => ⟨false, taken⟩) (hle : taken' ≤ taken) :
    k.Follows m edge x x' fun _ => ⟨e, taken'⟩ :=
  h.weaken (Nat.le_refl m) id fun _ => ⟨nofun, hle⟩

/-- No text has fewer tokens than none. -/
theorem Follows.bounded : k.Follows 0 false x x' S :=
  ⟨fun hlt => absurd hlt (Nat.not_lt_zero _), nofun⟩

/-- A reader that never succeeds on the text. -/
theorem Follows.of_fails (h : Copy.Fails x) : k.Follows m edge x x' S where
  keeps _ _ hx := by
    obtain ⟨e, he⟩ := h k.around _
    rw [he] at hx
    cases hx
  strays _ c a d _ hx := by
    obtain ⟨e, he⟩ := h k.around c
    rw [he] at hx
    cases hx

/-- One reader after the other. Behind the first fewer tokens are left,
and it may have stopped at a dead end. -/
theorem Follows.bind (hx : k.Follows m edge x x' S)
    (hf : ∀ a, k.Follows (m - (S a).taken) (S a).deadEnd (f a) (f' a)
      fun b => (T b).behind (S a).taken) : k.Follows m edge (x >>= f) (x' >>= f') T where
  keeps hlt hsynced hperform := by
    obtain ⟨a, c₁, hfirst, hrest⟩ := perform_bind_eq_ok.mp hperform
    rcases hx.keeps hlt hsynced hfirst with ⟨c₁', hfirst', hmid⟩ | ⟨hdead, hmid⟩
    · have hlength := hmid.length'
      exact ((hf a).keeps (by omega) hmid.synced hrest).behind hfirst' hmid
    · exact .inr ((hf a).strays hdead c₁ _ _ hmid hrest)
  strays hyes c b d hc hperform := by
    obtain ⟨a, c₁, hfirst, hrest⟩ := perform_bind_eq_ok.mp hperform
    obtain ⟨hdead, hmid⟩ := hx.strays hyes c a c₁ hc hfirst
    exact (hf a).strays hdead c₁ b d hmid hrest

/-- How many tokens the first has taken need not matter. -/
theorem Follows.then (hx : k.Follows m edge x x' S)
    (hf : ∀ a, k.Follows m (S a).deadEnd (f a) (f' a) fun b => (T b).behind (S a).taken) :
    k.Follows m edge (x >>= f) (x' >>= f') T :=
  hx.bind fun a => (hf a).mono (Nat.sub_le _ _)

theorem follows_pure {a : α} (hedge : edge = true → (S a).deadEnd = true)
    (htaken : (S a).taken = 0) :
    k.Follows m edge (pure a) (pure a) S where
  keeps {c c' _ _} _ hsynced hperform := by
    cases hperform
    exact .inl ⟨c', rfl, htaken ▸ hsynced.advances⟩
  strays hyes c _ _ hc hperform := by
    cases hperform
    exact ⟨hedge hyes, hc⟩

theorem Follows.map {g : α → β} (hx : k.Follows m edge x x' fun a => T (g a)) :
    k.Follows m edge (g <$> x) (g <$> x') T where
  keeps hlt hsynced hperform := by
    obtain ⟨a, hfirst, rfl⟩ := Copy.perform_map_eq_ok.mp hperform
    refine (hx.keeps hlt hsynced hfirst).imp_left ?_
    rintro ⟨d', hx', hd⟩
    exact ⟨d', Copy.perform_map_eq_ok.mpr ⟨a, hx', rfl⟩, hd⟩
  strays hyes c _ d hc hperform := by
    obtain ⟨a, hfirst, rfl⟩ := Copy.perform_map_eq_ok.mp hperform
    exact hx.strays hyes c a d hc hfirst

/-- A value that is named at once. -/
theorem Follows.pure_bind {a : α} (h : k.Follows m edge (f a) (f' a) T) :
    k.Follows m edge (pure a >>= f) (pure a >>= f') T :=
  h

/-- Both take the same branch. -/
theorem Follows.ite {p : Prop} [Decidable p] (hx : p → k.Follows m edge x x' S)
    (hy : ¬p → k.Follows m edge y y' S) :
    k.Follows m edge (if p then x else y) (if p then x' else y') S := by
  split
  · next h => exact hx h
  · next h => exact hy h

/-- A reader that is left out on a condition, before another. -/
theorem Follows.when {p : Prop} [Decidable p] {z z' : Parser Unit} {f f' : Unit → Parser β}
    (hz : k.Follows m edge z z' fun _ => ⟨edge, 0⟩) (hf : k.Follows m edge (f ()) (f' ()) T) :
    k.Follows m edge (if p then z >>= f else f ()) (if p then z' >>= f' else f' ()) T :=
  .ite (fun _ => hz.then fun _ => hf) fun _ => hf

/-- One of two readers, before another. -/
theorem Follows.choose {p : Prop} [Decidable p] (hx : k.Follows m edge x x' S)
    (hy : k.Follows m edge y y' S)
    (hf : ∀ a, k.Follows m (S a).deadEnd (f a) (f' a) fun b => (T b).behind (S a).taken) :
    k.Follows m edge (if p then x >>= f else y >>= f) (if p then x' >>= f' else y' >>= f') T :=
  .ite (fun _ => hx.then hf) fun _ => hy.then hf

theorem Follows.read {f f' : Surroundings → Parser β}
    (h : k.Follows m edge (f k.around) (f' k.surroundings) T) :
    k.Follows m edge (read >>= f) (read >>= f') T :=
  ⟨fun hlt hsynced hperform => h.keeps hlt hsynced hperform, h.strays⟩

/-- The version is the same for both. -/
theorem follows_require (condition : DialectVersion → Bool) (feature : Feature) :
    k.Follows m edge (require condition feature) (require condition feature)
      fun _ => ⟨edge, 0⟩ := by
  refine .read ?_
  show k.Follows m edge (if condition k.around.version then _ else _)
    (if condition k.around.version then _ else _) _
  exact .ite (fun _ => follows_pure id rfl) fun _ => .of_fails (Copy.fails_throw _)

/-- A version lacks what it is asked for. -/
theorem follows_require_false {condition : DialectVersion → Bool} {feature : Feature}
    {f f' : Unit → Parser β} (h : condition k.around.version = false) :
    k.Follows m edge (require condition feature >>= f) (require condition feature >>= f') T := by
  have hfails (c : Cursor) {b : β} {d : Cursor} :
      ¬(require condition feature >>= f).perform k.around c = .ok (b, d) := by
    intro hperform
    obtain ⟨_, _, hrequire, -⟩ := perform_bind_eq_ok.mp hperform
    change Parser.perform (if condition k.around.version then _ else _) k.around c = _ at hrequire
    rw [h] at hrequire
    cases hrequire
  exact ⟨fun _ _ hperform => absurd hperform (hfails _), fun _ c _ _ _ hperform =>
    absurd hperform (hfails c)⟩

-- ======================================================== single tokens

/-- Both take the same tokens from the front. -/
theorem Synced.keeps_takes (h : k.Synced c c') {a : α} {rest rest' : List Token} {n : Nat}
    (hx : Takes k.around x c.tokens a rest) (hx' : Takes k.surroundings x' c'.tokens a rest')
    (hrest : k.Spells rest rest') (hsuffix : rest <:+ c.tokens)
    (hlength : rest.length + n ≤ c.tokens.length) (hlength' : rest'.length + n ≤ c'.tokens.length)
    {b : α} (hperform : x.perform k.around c = .ok (b, d)) :
    a = b ∧ d.tokens = rest ∧
      ∃ d', x'.perform k.surroundings c' = .ok (b, d') ∧ k.Advances n c c' d d' := by
  obtain ⟨d₁, hd₁, rfl, hordinals⟩ := hx c rfl
  obtain ⟨d', hd', rfl, hordinals'⟩ := hx' c' rfl
  rw [hd₁] at hperform
  cases hperform
  exact ⟨rfl, rfl, d', hd', h.behind hsuffix hrest hordinals hordinals', hlength, hlength'⟩

/-- Tokens that stand in both and that both take. -/
theorem Synced.keeps_front (h : k.Synced c c') {front rest rest' : List Token}
    (hc : c.tokens = front ++ rest) (hc' : c'.tokens = front ++ rest') (hrest : k.Spells rest rest')
    {a b : α} (hx : Takes k.around x (front ++ rest) a rest)
    (hx' : Takes k.surroundings x' (front ++ rest') a rest')
    (hperform : x.perform k.around c = .ok (b, d)) :
    a = b ∧ ∃ d', x'.perform k.surroundings c' = .ok (b, d') ∧
      k.Advances front.length c c' d d' := by
  rw [← hc] at hx
  rw [← hc'] at hx'
  have hlength : rest.length + front.length ≤ c.tokens.length := by
    rw [hc, List.length_append]
    omega
  have hlength' : rest'.length + front.length ≤ c'.tokens.length := by
    rw [hc', List.length_append]
    omega
  obtain ⟨heq, -, hd⟩ := h.keeps_takes hx hx' hrest (hc ▸ List.suffix_append front rest) hlength
    hlength' hperform
  exact ⟨heq, hd⟩

theorem Synced.keeps_token (h : k.Synced c c') {t : Token} {rest rest' : List Token}
    (hc : c.tokens = t :: rest) (hc' : c'.tokens = t :: rest') (hrest : k.Spells rest rest')
    {a b : α} (hx : Takes k.around x (t :: rest) a rest)
    (hx' : Takes k.surroundings x' (t :: rest') a rest')
    (hperform : x.perform k.around c = .ok (b, d)) :
    a = b ∧ ∃ d', x'.perform k.surroundings c' = .ok (b, d') ∧ k.Advances 1 c c' d d' :=
  h.keeps_front (show c.tokens = [t] ++ rest from hc) hc' hrest hx hx' hperform

/-- A reader that goes on behind a token that stands in both. -/
theorem Synced.keeps_next (h : k.Synced c c') {f f' : Token → Parser β} {t : Token}
    {rest rest' : List Token} (hc : c.tokens = t :: rest) (hc' : c'.tokens = t :: rest')
    (hrest : k.Spells rest rest') (hf : k.Follows m false (f t) (f' t) fun b => (T b).behind 1)
    (hlt : c'.tokens.length < m + 1) {b : β}
    (hperform : (next >>= f).perform k.around c = .ok (b, d)) :
    k.Keeps (next >>= f') T c c' b d := by
  obtain ⟨u, c₁, hnext, hbehind⟩ := perform_bind_eq_ok.mp hperform
  obtain ⟨rfl, c₁', hnext', hmid⟩ := h.keeps_token hc hc' hrest takes_next takes_next hnext
  have hlength := hmid.length'
  exact (hf.keeps (by omega) hmid.synced hbehind).behind hnext' hmid

/-- A reader that begins with the next token and makes nothing of
VALUES. -/
theorem follows_next {f f' : Token → Parser β} (hvalues : Copy.Fails (f (.keyword .VALUES)))
    (hf : ∀ t, k.Follows m false (f t) (f' t) fun b => (T b).behind 1) :
    k.Follows m edge (next >>= f) (next >>= f') T := by
  have hend {c c₁ d : Cursor} {t : Token} {b : β} (hdead : DeadEnd c.tokens)
      (hnext : next.perform k.around c = .ok (t, c₁)) : (f t).perform k.around c₁ ≠ .ok (b, d) := by
    intro hrest
    obtain ⟨htokens, -⟩ := Copy.perform_next_eq_ok hnext
    obtain ⟨e, he⟩ := hvalues k.around c₁
    rw [hdead t (htokens ▸ rfl), he] at hrest
    cases hrest
  constructor
  · intro c c' b d hlt hsynced hperform
    rcases hsynced.spells.heads with ⟨t, rest, rest', hc, hc', hspells⟩ | hparted
    · exact hsynced.keeps_next hc hc' hspells (hf t) (Nat.lt_succ_of_lt hlt) hperform
    · obtain ⟨t, c₁, hnext, hrest⟩ := perform_bind_eq_ok.mp hperform
      exact absurd hrest (hend (fun _ => hparted.deadEnd) hnext)
  · intro _ c b d hc hperform
    obtain ⟨t, c₁, hnext, hrest⟩ := perform_bind_eq_ok.mp hperform
    exact absurd hrest (hend hc hnext)

/-- Where the next token is expected, the spellings have not parted. -/
theorem follows_expect {t : Token} (ht : t ≠ .keyword .VALUES) :
    k.Follows m edge (expect t) (expect t) fun _ => ⟨false, 1⟩ := by
  refine follows_next ?_ fun u => ?_
  · rw [if_neg ht.symm]
    exact Copy.fails_fault _
  · exact .ite (fun _ => follows_pure nofun rfl) fun _ => .of_fails (Copy.fails_fault _)

theorem follows_identifier :
    k.Follows m edge identifier identifier fun _ => ⟨false, 1⟩ := by
  refine follows_next (Copy.fails_fault _) fun u => ?_
  cases nameOf? u with
  | none => exact .of_fails (Copy.fails_fault _)
  | some name => exact follows_pure nofun rfl

/-- A reader that takes the next token only if it knows it, and what goes
on from there. Where the spellings part, the token of neither is known,
or the reader may stop there. -/
theorem follows_dispatch {h h' : Token → Option α} {R : α → α → Prop}
    {f f' : Option α → Parser β} (hvalues : h (.keyword .VALUES) = none)
    (hother : edge = true ∨ ∀ t, k.Parting t → h' t = none)
    (hsame : ∀ t, Option.Rel R (h t) (h' t))
    (hsome : ∀ a a', R a a' →
      k.Follows m false (f (some a)) (f' (some a')) fun b => (T b).behind 1)
    (hnone : k.Follows m edge (f none) (f' none) T) :
    k.Follows m edge (nextMap? h >>= f) (nextMap? h' >>= f') T := by
  have hdeclines {h : Token → Option α} {around : Surroundings} {c : Cursor} {t : Token}
      {rest : List Token} (hc : c.tokens = t :: rest) (ht : h t = none) :
      (nextMap? h).perform around c = .ok (none, c) :=
    Copy.perform_nextMap_declines fun u hu => by
      rw [hc] at hu
      exact Option.some.inj hu ▸ ht
  have hend {c : Cursor} (hdead : DeadEnd c.tokens) :
      (nextMap? h).perform k.around c = .ok (none, c) :=
    Copy.perform_nextMap_declines fun t ht => hdead t ht ▸ hvalues
  constructor
  · intro c c' b d hlt hsynced hperform
    rcases hsynced.spells.heads with ⟨t, rest, rest', hc, hc', hspells⟩ | hparted
    · have hrel := hsame t
      generalize hfound : h t = found at hrel
      generalize hfound' : h' t = found' at hrel
      cases hrel with
      | none =>
          rw [perform_bind (hdeclines hc hfound)] at hperform
          exact (hnone.keeps hlt hsynced hperform).of_perform_eq
            (perform_bind (hdeclines hc' hfound'))
      | some ha =>
          have hx : Takes k.around (nextMap? h) (t :: rest) _ rest := takes_nextMap hfound
          have hx' : Takes k.surroundings (nextMap? h') (t :: rest') _ rest' :=
            takes_nextMap hfound'
          obtain ⟨c₁, hnext, rfl, hordinals⟩ := hx c hc
          obtain ⟨c₁', hnext', rfl, hordinals'⟩ := hx' c' hc'
          rw [perform_bind hnext] at hperform
          have hmid : k.Advances 1 c c' c₁ c₁' := {
            synced := hsynced.behind (hc ▸ List.suffix_cons t _) hspells hordinals hordinals'
            length := Nat.le_of_eq (by rw [hc, List.length_cons])
            length' := Nat.le_of_eq (by rw [hc', List.length_cons]) }
          have hlength := hmid.length'
          exact ((hsome _ _ ha).keeps (by omega) hmid.synced hperform).behind hnext' hmid
    · have hdead : DeadEnd c.tokens := fun _ => hparted.deadEnd
      rw [perform_bind (hend hdead)] at hperform
      rcases hother with hyes | hunknown
      · exact .inr (hnone.strays hyes c b d hdead hperform)
      · exact (hnone.keeps hlt hsynced hperform).of_perform_eq
          (perform_bind (Copy.perform_nextMap_declines fun t ht => hunknown t (hparted.parting ht)))
  · intro hyes c b d hc hperform
    rw [perform_bind (hend hc)] at hperform
    exact hnone.strays hyes c b d hc hperform

theorem follows_nextMap {g : Token → Option α} (hvalues : g (.keyword .VALUES) = none)
    (hother : edge = true ∨ ∀ t, k.Parting t → g t = none) :
    k.Follows m edge (nextMap? g) (nextMap? g) (Exit.found edge) := by
  have hsame (t : Token) : Option.Rel Eq (g t) (g t) := by
    cases g t with
    | none => exact .none
    | some a => exact .some rfl
  rw [← bind_pure (nextMap? g)]
  refine follows_dispatch hvalues hother hsame (fun a a' ha => ?_) (follows_pure id rfl)
  subst ha
  exact follows_pure nofun rfl

/-- What is accepted is taken, and a reader goes on behind it. -/
theorem follows_accept {t : Token} (ht : t ≠ .keyword .VALUES) (h : edge = true ∨ ¬k.Parting t) :
    k.Follows m edge (accept t) (accept t)
      fun taken => if taken then ⟨false, 1⟩ else ⟨edge, 0⟩ := by
  have hknown : edge = true ∨
      ∀ u, k.Parting u → (if u = t then some () else none) = none := by
    refine h.imp_right fun hother u hu => if_neg ?_
    rintro rfl
    exact hother hu
  refine (follows_nextMap (if_neg ht.symm) hknown).then fun o => ?_
  cases o with
  | none => exact follows_pure id rfl
  | some _ => exact follows_pure id rfl

/-- Where the spellings do not part, it does not matter whether it is. -/
theorem follows_accept_inside {t : Token} (ht : t ≠ .keyword .VALUES) (hparting : ¬k.Parting t) :
    k.Follows m false (accept t) (accept t) fun _ => ⟨false, 0⟩ := by
  refine (follows_accept ht (.inr hparting)).weaken (Nat.le_refl m) id fun taken => ?_
  cases taken <;> exact ⟨id, Nat.zero_le _⟩

/-- A test whether a token is next, which takes it. -/
theorem follows_ifAccept {t : Token} (ht : t ≠ .keyword .VALUES) (h : edge = true ∨ ¬k.Parting t)
    (hx : k.Follows (m - 1) false x x' fun a => (S a).behind 1) (hy : k.Follows m edge y y' S) :
    k.Follows m edge (do if ← accept t then x else y) (do if ← accept t then x' else y') S := by
  refine (follows_accept ht h).bind fun taken => ?_
  cases taken with
  | true => exact hx
  | false => exact hy

theorem follows_skipOver {t : Token} (ht : t ≠ .keyword .VALUES) (h : edge = true ∨ ¬k.Parting t) :
    k.Follows m edge (skipOver t) (skipOver t) fun _ => ⟨edge, 0⟩ := by
  refine (follows_accept ht h).then fun taken => ?_
  cases taken with
  | true => exact follows_pure nofun rfl
  | false => exact follows_pure id rfl

/-- The next token can be seen in the other spelling. -/
theorem perform_peek_surroundings (c : Cursor) :
    peek.perform k.surroundings c = .ok (c.tokens.head?, c) :=
  perform_peek_eq_ok.mpr ⟨rfl, rfl, fun _ => k.complete⟩

/-- A reader that looks at the next token. Where the spellings part, it
has to be the same in the end. -/
theorem follows_peek_parted {f f' : Option Token → Parser β}
    (hf : ∀ o, k.Follows m edge (f o) (f' o) T)
    (hparted : ∀ {c c' b d}, c'.tokens.length < m → k.Synced c c' →
      k.Parted c.tokens.head? c'.tokens.head? →
      (f c.tokens.head?).perform k.around c = .ok (b, d) →
      k.Keeps (f' c'.tokens.head?) T c c' b d) :
    k.Follows m edge (peek >>= f) (peek >>= f') T := by
  constructor
  · intro c c' b d hlt hsynced hperform
    obtain ⟨o, c₁, hpeek, hrest⟩ := perform_bind_eq_ok.mp hperform
    obtain ⟨rfl, rfl, -⟩ := perform_peek_eq_ok.mp hpeek
    refine Keeps.of_perform_eq ?_ (perform_bind (perform_peek_surroundings c'))
    rcases hsynced.spells.heads with ⟨t, rest, rest', hc, hc', -⟩ | hheads
    · rw [hc] at hrest
      rw [hc']
      exact (hf (some t)).keeps hlt hsynced hrest
    · exact hparted hlt hsynced hheads hrest
  · intro hyes c b d hc hperform
    obtain ⟨o, c₁, hpeek, hrest⟩ := perform_bind_eq_ok.mp hperform
    obtain ⟨rfl, rfl, -⟩ := perform_peek_eq_ok.mp hpeek
    exact (hf _).strays hyes c₁ b d hc hrest

/-- It is if it may stop there, or treats the tokens of both alike. -/
theorem follows_peek {f f' : Option Token → Parser β} (hf : ∀ o, k.Follows m edge (f o) (f' o) T)
    (h : edge = true ∨ ∀ o o', k.Parted o o' → k.Follows m edge (f o) (f' o') T) :
    k.Follows m edge (peek >>= f) (peek >>= f') T := by
  refine follows_peek_parted hf fun hlt hsynced hparted hperform => ?_
  rcases h with hyes | hboth
  · exact .inr ((hf _).strays hyes _ _ _ (fun _ => hparted.deadEnd) hperform)
  · exact (hboth _ _ hparted).keeps hlt hsynced hperform

/-- It does if it makes the same of all those. -/
theorem follows_peek_else {f : Option Token → Parser β} {y : Parser β} (hnone : f none = y)
    (hvalues : f (some (.keyword .VALUES)) = y)
    (hparting : ∀ t ∈ .ident "excluded" :: enders, f (some t) = y)
    (hf : ∀ o, k.Follows m edge (f o) (f o) T) :
    k.Follows m edge (peek >>= f) (peek >>= f) T := by
  refine follows_peek hf (.inr fun o o' hparted => ?_)
  have hleft : f o = y := by
    cases o with
    | none => exact hnone
    | some t => exact hparted.deadEnd rfl ▸ hvalues
  have hright : f o' = y := by
    cases o' with
    | none => exact hnone
    | some t => exact hparting t (hparted.parting rfl).mem
  rw [hright, ← hleft]
  exact hf o

/-- A test whether a token is next, which leaves it. -/
theorem follows_ifPeek {t : Token} (ht : t ≠ .keyword .VALUES) (h : edge = true ∨ ¬k.Parting t)
    (hx : k.Follows m edge x x' S) (hy : k.Follows m edge y y' S) :
    k.Follows m edge (do if (← peek) = some t then x else y)
      (do if (← peek) = some t then x' else y') S := by
  refine follows_peek (fun o => .ite (fun _ => hx) fun _ => hy) ?_
  refine h.imp_right fun hother o o' hparted => ?_
  rw [if_neg fun heq => ht (hparted.deadEnd heq), if_neg fun heq => hother (hparted.parting heq)]
  exact hy

-- =========================================================== repetition

/-- A repetition strays where each round does. -/
theorem Strays.iterateWithin {step : α → Parser (Option α)}
    (hstep : ∀ a, k.Strays (step a) (Exit.round edge)) (hyes : edge = true) (count : Nat) (a : α) :
    k.Strays (iterateWithin step count a) fun _ => ⟨edge, 0⟩ := by
  induction count generalizing a with
  | zero =>
      intro c b d hc hperform
      cases hperform
      exact ⟨hyes, hc⟩
  | succ count ih =>
      intro c b d hc hperform
      obtain ⟨o, c₁, hround, hrest⟩ := perform_bind_eq_ok.mp hperform
      obtain ⟨-, hmid⟩ := hstep a c o c₁ hc hround
      cases o with
      | none =>
          cases hrest
          exact ⟨hyes, hmid⟩
      | some next => exact ih next c₁ b d hmid hrest

/-- The number of rounds is bounded by the tokens that are left, in
either spelling by its own. -/
theorem keeps_iterateWithin {step step' : α → Parser (Option α)}
    (hstep : ∀ a, k.Follows m edge (step a) (step' a) (Exit.round edge)) (count count' : Nat)
    {a b : α} (hcount : c.tokens.length < count) (hcount' : c'.tokens.length < count')
    (hlt : c'.tokens.length < m) (hsynced : k.Synced c c')
    (hperform : (iterateWithin step count a).perform k.around c = .ok (b, d)) :
    k.Keeps (iterateWithin step' count' a) (fun _ => ⟨edge, 0⟩) c c' b d := by
  induction count generalizing a c c' count' with
  | zero => exact absurd hcount (Nat.not_lt_zero _)
  | succ count ih =>
      obtain ⟨count', rfl⟩ :=
        Nat.exists_eq_succ_of_ne_zero (Nat.ne_of_gt (Nat.zero_lt_of_lt hcount'))
      obtain ⟨o, c₁, hround, hrest⟩ := perform_bind_eq_ok.mp hperform
      rcases (hstep a).keeps hlt hsynced hround with ⟨c₁', hround', hmid⟩ | ⟨hyes, hmid⟩
      · cases o with
        | none =>
            cases hrest
            exact .inl ⟨c₁', perform_bind_eq_ok.mpr ⟨none, c₁', hround', rfl⟩, hmid⟩
        | some next =>
            have hlength : c₁.tokens.length + 1 ≤ c.tokens.length := hmid.length
            have hlength' : c₁'.tokens.length + 1 ≤ c'.tokens.length := hmid.length'
            refine (ih count' (by omega) (by omega) (by omega) hmid.synced hrest).imp_left ?_
            rintro ⟨d', hrest', hd⟩
            refine ⟨d', perform_bind_eq_ok.mpr ⟨some next, c₁', hround', hrest'⟩, ?_⟩
            exact (hmid.trans hd).weaken (Nat.zero_le _)
      · cases o with
        | none =>
            cases hrest
            exact .inr ⟨hyes, hmid⟩
        | some next =>
            have hstrays := Strays.iterateWithin (fun a => (hstep a).strays hyes) hyes count next
            exact .inr (hstrays c₁ b d hmid hrest)

/-- A repetition follows if each round does. -/
theorem follows_iterate {step step' : α → Parser (Option α)}
    (hstep : ∀ a, k.Follows m edge (step a) (step' a) (Exit.round edge)) (a : α) :
    k.Follows m edge (iterate step a) (iterate step' a) fun _ => ⟨edge, 0⟩ where
  keeps hlt hsynced hperform := by
    refine keeps_iterateWithin hstep _ _ ?_ ?_ hlt hsynced hperform
    · exact Nat.lt_succ_of_le (Nat.le_of_eq (List.length_map _))
    · exact Nat.lt_succ_of_le (Nat.le_of_eq (List.length_map _))
  strays hyes c b d hc hperform :=
    Strays.iterateWithin (fun a => (hstep a).strays hyes) hyes _ a c b d hc hperform

/-- Items behind commas. Where the other spelling goes on with a comma,
the list may stop. -/
theorem follows_commaFold {item item' : α → Parser α} (h : edge = true ∨ ¬k.Parting (.sign .comma))
    (hitem : ∀ a, k.Follows m false (item a) (item' a) fun _ => ⟨edge, 1⟩) (a : α) :
    k.Follows m false (commaFold item a) (commaFold item' a) fun _ => ⟨edge, 1⟩ := by
  refine (hitem a).then fun b => follows_iterate (fun c => ?_) b
  refine follows_ifAccept nofun h (Follows.map ?_) (follows_pure id rfl)
  exact (hitem c).weaken (Nat.sub_le _ _) id fun _ => ⟨id, Nat.zero_le _⟩

theorem follows_commaList (h : edge = true ∨ ¬k.Parting (.sign .comma))
    (hx : k.Follows m false x x' fun _ => ⟨edge, 1⟩) :
    k.Follows m false (commaList x) (commaList x') fun _ => ⟨edge, 1⟩ :=
  follows_commaFold h (fun _ => hx.then fun _ => follows_pure id rfl) []

/-- Between parentheses a reader may stop where it likes: the closing one
stands at no dead end. -/
theorem follows_parenthesized {e : Exit} (hx : k.Follows m false x x' fun _ => e) :
    k.Follows m edge (parenthesized x) (parenthesized x') fun _ => ⟨false, 1⟩ := by
  refine (follows_expect (by decide)).then fun _ => ?_
  have hcontent : k.Follows m false x x' fun _ => ⟨e.deadEnd, 0⟩ :=
    hx.weaken (Nat.le_refl m) id fun _ => ⟨id, Nat.zero_le _⟩
  refine hcontent.then fun a => ?_
  exact (follows_expect (by decide)).then fun _ => follows_pure nofun rfl

theorem follows_identifierList :
    k.Follows m edge identifierList identifierList fun _ => ⟨false, 1⟩ :=
  follows_parenthesized (follows_commaList (.inl rfl) (follows_identifier.loosen (Nat.le_refl 1)))

/-- A clause behind its keyword. -/
theorem follows_clause {word : Keyword} (ht : word ≠ .VALUES)
    (h : edge = true ∨ ¬k.Parting (.keyword word))
    (hx : k.Follows (m - 1) false x x' fun _ => ⟨edge, 0⟩) :
    k.Follows m edge (clause? word x) (clause? word x') fun _ => ⟨edge, 0⟩ :=
  follows_ifAccept (fun heq => ht (Token.keyword.inj heq)) h (.map hx) (follows_pure id rfl)

-- ==================================================== texts that go on

/-- A text behind which a tail stands in the other spelling. -/
def goesOn (v : DialectVersion) (hints : v.dialect.hints ≠ .table) (size ahead : Nat)
    (tail : List Token) (ends : ∀ t, tail.head? = some t → t ∈ enders) : Respelling where
  around := { version := v, failure := none, size := 0 }
  size := size
  tail := tail
  proposes := false
  ahead := ahead
  complete := rfl
  upserts := fun h => absurd h Bool.false_ne_true
  hints := hints
  ends := ends

/-- The places before a text and before the text with its tail. -/
theorem synced_append (hc' : c'.tokens = c.tokens ++ k.tail)
    (hordinals : c'.ordinals = c.ordinals + k.ahead)
    (hcounted : k.ahead = 0 ∨ .sign .question ∉ c.tokens) : k.Synced c c' where
  spells := hc' ▸ spells_append k c.tokens
  ordinals := hordinals
  counted := hcounted

/-- What is read up to the end of a text is read up to the tail. -/
theorem Follows.keeps_end {taken : Nat} {a : α} (h : k.Follows m edge x x' fun _ => ⟨false, taken⟩)
    (hlt : c'.tokens.length < m) (hsynced : k.Synced c c')
    (hperform : x.perform k.around c = .ok (a, d)) (hend : d.tokens = []) :
    ∃ d', x'.perform k.surroundings c' = .ok (a, d') ∧ d'.tokens = k.tail ∧
      d'.ordinals = d.ordinals + k.ahead := by
  rcases h.keeps hlt hsynced hperform with ⟨d', hd', hadvances⟩ | ⟨hdead, -⟩
  · have hspells := hadvances.synced.spells
    rw [hend] at hspells
    exact ⟨d', hd', hspells.eq_tail, hadvances.synced.ordinals⟩
  · cases hdead

end Respelling

end DialectDb
