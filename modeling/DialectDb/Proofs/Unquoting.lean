/-
A text and the same with some quoted names written without quotes, where
a name is the word of an unreserved keyword. As tokens, the one has an
identifier where the other has the keyword (`Place.Unquotes`).

Whether that makes a difference depends on where the name stands and on
what is behind it, but of all that is before it only a little matters,
the place. It is told by the tokens alone, without reading them, one
token at a time (`Place.after`): what is wanted next (`Spot`), and for
each parenthesis that is open what is wanted behind it when it is closed.
Only behind a count of TOP the latter is not always the same.

Two readers track each other if they succeed on the same such texts, with
results that are related, and get to the same place (`Tracks`). There is
a rule for each reader of `Grammar.Parser` and for each way to put
readers together.
-/
import DialectDb.Proofs.Making
import DialectDb.Proofs.Mirroring

namespace DialectDb.Unquoting

open DialectDb.Parser

-- =============================================================== spots

/-- What is wanted next, as far as the tokens before it tell. -/
inductive Spot
  /-- An operand. -/
  | operand
  /-- A selected item, or TOP. -/
  | item
  /-- A selected item, and TOP is not there. -/
  | first
  /-- The count of FETCH, or ROW or ROWS without one. -/
  | rowCount
  /-- A name. -/
  | name
  /-- A name, or MATERIALIZED. -/
  | label
  /-- A named query, or RECURSIVE. -/
  | namedQuery
  /-- What is behind an operand, a table or a word that no operand
  follows. -/
  | behind
  /-- FIRST or NEXT. -/
  | fetch
  /-- The count of TOP. -/
  | count
  /-- A selected item, unless the name before it is only the beginning of
  a count of TOP. -/
  | counted
  /-- The column of a count of TOP. -/
  | countName
  /-- Query hints. -/
  | option
  /-- The end of query hints, which is the next closing parenthesis. -/
  | hints
deriving DecidableEq

namespace Spot

/-- Behind a name or another single token that was wanted. -/
def named : Spot → Spot
  | count | countName => operand
  | _ => behind

/-- Behind the parenthesis that closes one. -/
def closed : Spot → Spot
  | count | counted => operand
  | _ => behind

/-- Behind a keyword that is more than a name wherever it stands. -/
def ofKeyword? : Keyword → Option Spot
  | .SELECT => some item
  | .FETCH => some fetch
  | .FROM | .JOIN => some name
  | .AS => some label
  | .WITH => some namedQuery
  | .AND | .BETWEEN | .BY | .HAVING | .LIKE | .LIMIT | .NOT | .OFFSET | .ON | .OR | .WHERE =>
    some operand
  | _ => none

/-- Behind a token that is no parenthesis. A star between operands
multiplies, and one where an operand is wanted is an operand. -/
def after : Spot → Token → Spot
  | hints, _ => hints
  | counted, .sign .period => countName
  | _, .sign .period => name
  | behind, .sign .asterisk => operand
  | s, .sign .asterisk | s, .sign .question => s.named
  | _, .sign .semicolon => behind
  | _, .sign _ => operand
  | count, .ident _ | count, .keyword .EXISTS | count, .keyword .VALUES => counted
  | item, .keyword .TOP => count
  | item, .keyword .ALL | item, .keyword .DISTINCT => item
  | first, .keyword .ALL | first, .keyword .DISTINCT => item
  | operand, .keyword .ALL | operand, .keyword .DISTINCT => operand
  | counted, .keyword .ALL | counted, .keyword .DISTINCT => operand
  | namedQuery, .keyword .RECURSIVE => name
  | fetch, .keyword .FIRST | fetch, .keyword .NEXT => rowCount
  | behind, .keyword .NOT | label, .keyword .NOT => behind
  | behind, .keyword .OPTION => option
  | s, .keyword word => (ofKeyword? word).getD s.named
  | s, _ => s.named

/-- Whether a name can be wanted. -/
def names : Spot → Bool
  | behind | fetch | option | hints => false
  | _ => true

/-- Whether a keyword has a meaning of its own where a name can be
wanted. -/
def keeps : Spot → Keyword → Bool
  | item, word | first, word => word = .TOP
  | rowCount, word => word = .ROW || word = .ROWS
  | label, word => word = .MATERIALIZED
  | namedQuery, word => word = .RECURSIVE
  | _, _ => false

/-- Whether only a name is wanted. -/
def alone : Spot → Bool
  | name | label | countName => true
  | _ => false

/-- A keyword may stand for a name, before a token. -/
def Admits (s : Spot) (word : Keyword) (next : Option Token) : Prop :=
  word.isUnreserved = true ∧ s.names = true ∧ s.keeps word = false ∧
    (s.alone = true ∨ next ≠ some (.sign .period) ∧ next ≠ some (.sign .openParen))

instance (s : Spot) (word : Keyword) (next : Option Token) : Decidable (s.Admits word next) := by
  unfold Admits
  infer_instance

/-- Whether a token may stand for a name. -/
def mistakes (s : Spot) : Token → Bool
  | .ident _ => s.names
  | .keyword word => word.isUnreserved && s.names && !s.keeps word
  | _ => false

/-- The tokens that stand at a spot of two texts of which one has bare
names. -/
inductive Pairs (s : Spot) : Token → Token → Prop
  | same (t : Token) : Pairs s t t
  | bare {word : Keyword} (hword : word.isUnreserved = true) (hnames : s.names = true)
      (hkeeps : s.keeps word = false) : Pairs s (.ident word.word) (.keyword word)

/-- A token that stands for no name is in both texts. -/
theorem Pairs.eq_iff {s : Spot} {t t' u : Token} (h : s.Pairs t t') (hu : s.mistakes u = false) :
    t = u ↔ t' = u := by
  cases h with
  | same t => exact Iff.rfl
  | @bare word hword hnames hkeeps =>
      have hmistakes : s.mistakes (.keyword word) = true := by
        unfold mistakes
        simp [hword, hnames, hkeeps]
      constructor
      · rintro rfl
        exact absurd (hnames.symm.trans hu) nofun
      · rintro rfl
        exact absurd (hmistakes.symm.trans hu) nofun

theorem eq_some_iff_of_rel {s : Spot} {o o' : Option Token} (h : Option.Rel s.Pairs o o')
    {t : Token} (ht : s.mistakes t = false) : o = some t ↔ o' = some t := by
  cases h with
  | none => exact Iff.rfl
  | some hpairs => rw [Option.some.injEq, Option.some.injEq, hpairs.eq_iff ht]

/-- Where no name is wanted, the texts have the same token. -/
theorem Pairs.eq {s : Spot} {t t' : Token} (h : s.Pairs t t') (hs : s.names = false) : t = t' := by
  cases h with
  | same t => rfl
  | bare hword hnames hkeeps => exact absurd (hnames.symm.trans hs) nofun

theorem eq_of_rel {s : Spot} {o o' : Option Token} (h : Option.Rel s.Pairs o o')
    (hs : s.names = false) : o = o' := by
  cases h with
  | none => rfl
  | some hpairs => rw [hpairs.eq hs]

/-- Whether an expression may begin at a spot, be it TOP. -/
def opens : Spot → Bool
  | operand | first | rowCount => true
  | _ => false

/-- Whether signs mean what they mean behind an operand. -/
def usual : Spot → Bool
  | count | counted | option | hints => false
  | _ => true

/-- Whether an operand may begin at a spot. -/
def begins : Spot → Bool
  | operand | first | rowCount | count => true
  | _ => false

/-- Whether an identifier leads to the same as an unreserved keyword. -/
def plain : Spot → Bool
  | operand | first | rowCount | name | label | countName => true
  | _ => false

theorem begins_of_opens {s : Spot} (hs : s.opens = true) : s.begins = true := by
  cases s <;> first | rfl | cases hs

theorem alone_of_begins {s : Spot} (hs : s.begins = true) : s.alone = false := by
  cases s <;> first | rfl | cases hs

theorem named_of_opens {s : Spot} (hs : s.opens = true) : s.named = behind := by
  cases s <;> first | rfl | cases hs

theorem after_unreserved {s : Spot} (hs : s.plain = true ∨ s.begins = true) {word : Keyword}
    (hword : word.isUnreserved = true) : s.after (.keyword word) = s.named := by
  revert hs hword
  cases s <;> cases word <;> decide

end Spot

-- ============================================================== places

/-- What is wanted next, and what is wanted behind each parenthesis that
is open when it is closed, the innermost first. -/
structure Place where
  spot : Spot
  closing : List Spot

namespace Place

/-- The place behind a token. Among query hints, parentheses are not
counted. -/
def after : Place → Token → Place
  | ⟨.hints, k⟩, .sign .closeParen => ⟨.behind, k⟩
  | ⟨.hints, k⟩, .sign .openParen => ⟨.hints, k⟩
  | ⟨.option, k⟩, .sign .openParen => ⟨.hints, k⟩
  | ⟨s, k⟩, .sign .openParen => ⟨.operand, s.closed :: k⟩
  | ⟨_, s :: k⟩, .sign .closeParen => ⟨s, k⟩
  | ⟨_, []⟩, .sign .closeParen => ⟨.behind, []⟩
  | ⟨s, k⟩, t => ⟨s.after t, k⟩

/-- Only parentheses change what is wanted behind them. -/
theorem after_eq {s : Spot} {k : List Spot} (t : Token) (hopen : t ≠ .sign .openParen)
    (hclose : t ≠ .sign .closeParen) : after ⟨s, k⟩ t = ⟨s.after t, k⟩ := by
  unfold after
  split
  case h_7 hplace _ _ _ _ _ _ =>
      cases hplace
      rfl
  all_goals first | exact absurd rfl hopen | exact absurd rfl hclose

/-- An operand, or what may stand in its place, is wanted behind these
signs. -/
theorem after_separator {s : Spot} {k : List Spot} (hs : s.usual = true) {mark : Sign}
    (hmark : mark = .equal ∨ mark = .comma) : after ⟨s, k⟩ (.sign mark) = ⟨.operand, k⟩ := by
  rcases hmark with rfl | rfl <;> cases s <;> first | rfl | cases hs

theorem after_openParen {s : Spot} {k : List Spot} (hs : s.usual = true) :
    after ⟨s, k⟩ (.sign .openParen) = ⟨.operand, .behind :: k⟩ := by
  cases s <;> first | rfl | cases hs

theorem after_closeParen {s e : Spot} {k : List Spot} (hs : s.usual = true) :
    after ⟨s, e :: k⟩ (.sign .closeParen) = ⟨e, k⟩ := by
  cases s <;> first | rfl | cases hs

/-- Query hints end with the next closing parenthesis and nowhere else. -/
theorem after_hints {k : List Spot} {t : Token} (ht : t ≠ .sign .closeParen) :
    after ⟨.hints, k⟩ t = ⟨.hints, k⟩ := by
  by_cases hopen : t = .sign .openParen
  · rw [hopen]
    rfl
  · rw [after_eq t hopen ht]
    rfl

/-- Where the beginning of an expression leads. -/
def of (tokens : List Token) : Place :=
  tokens.foldl after ⟨.operand, []⟩

/-- From a place on, two texts are the same but for names that are bare
keywords in the second. -/
inductive Unquotes : Place → List Token → List Token → Prop
  | nil (s : Place) : Unquotes s [] []
  | same {s : Place} (t : Token) {tokens tokens' : List Token}
      (h : Unquotes (s.after t) tokens tokens') : Unquotes s (t :: tokens) (t :: tokens')
  | bare {s : Place} {word : Keyword} {tokens tokens' : List Token}
      (hadmits : s.spot.Admits word tokens.head?)
      (h : Unquotes (s.after (.ident word.word)) tokens tokens') :
      Unquotes s (.ident word.word :: tokens) (.keyword word :: tokens')

theorem Unquotes.refl (s : Place) (tokens : List Token) : s.Unquotes tokens tokens := by
  induction tokens generalizing s with
  | nil => exact .nil s
  | cons t tokens ih => exact .same t (ih _)

theorem Unquotes.length_eq {s : Place} {tokens tokens' : List Token}
    (h : s.Unquotes tokens tokens') : tokens.length = tokens'.length := by
  induction h with
  | nil => rfl
  | same t h ih => exact congrArg (· + 1) ih
  | bare hadmits h ih => exact congrArg (· + 1) ih

theorem Unquotes.head {s : Place} {tokens tokens' : List Token} (h : s.Unquotes tokens tokens') :
    Option.Rel s.spot.Pairs tokens.head? tokens'.head? := by
  cases h with
  | nil => exact .none
  | same t h => exact .some (.same t)
  | bare hadmits h => exact .some (.bare hadmits.1 hadmits.2.1 hadmits.2.2.1)

theorem Unquotes.second {s : Place} {tokens tokens' : List Token} (h : s.Unquotes tokens tokens') :
    ∃ s' : Spot, Option.Rel s'.Pairs tokens[1]? tokens'[1]? := by
  cases h with
  | nil => exact ⟨s.spot, .none⟩
  | same t h =>
      rw [List.getElem?_cons_succ, List.getElem?_cons_succ, ← List.head?_eq_getElem?,
        ← List.head?_eq_getElem?]
      exact ⟨_, h.head⟩
  | bare hadmits h =>
      rw [List.getElem?_cons_succ, List.getElem?_cons_succ, ← List.head?_eq_getElem?,
        ← List.head?_eq_getElem?]
      exact ⟨_, h.head⟩

/-- Another place will do if it admits what is next, with the same
behind. -/
theorem Unquotes.move {s s' : Place} {tokens tokens' : List Token} (h : s.Unquotes tokens tokens')
    (hafter : ∀ t ∈ tokens.head?, s'.after t = s.after t)
    (hadmits : ∀ word next, tokens.head? = some (.ident word.word) →
      s.spot.Admits word next → s'.spot.Admits word next) : s'.Unquotes tokens tokens' := by
  cases h with
  | nil => exact .nil _
  | same t h => exact .same t (hafter t rfl ▸ h)
  | bare hbare h => exact .bare (hadmits _ _ rfl hbare) (hafter _ rfl ▸ h)

/-- Where TOP is not next, that can be remembered. -/
theorem Unquotes.first {k : List Spot} {tokens tokens' : List Token}
    (h : Unquotes ⟨.item, k⟩ tokens tokens') (hhead : tokens.head? ≠ some (.keyword .TOP)) :
    Unquotes ⟨.first, k⟩ tokens tokens' := by
  refine h.move (fun t ht => ?_) fun word next _ hadmits => hadmits
  cases t with
  | keyword word => cases word <;> first | rfl | exact absurd ht hhead
  | sign mark => cases mark <;> first | rfl | (cases k <;> rfl)
  | _ => rfl

/-- Where RECURSIVE is not next, only a name is wanted. -/
theorem Unquotes.query {k : List Spot} {tokens tokens' : List Token}
    (h : Unquotes ⟨.namedQuery, k⟩ tokens tokens')
    (hhead : tokens.head? ≠ some (.keyword .RECURSIVE)) : Unquotes ⟨.name, k⟩ tokens tokens' := by
  refine h.move (fun t ht => ?_) fun word next _ hadmits => ?_
  · cases t with
    | keyword word => cases word <;> first | rfl | exact absurd ht hhead
    | sign mark => cases mark <;> first | rfl | (cases k <;> rfl)
    | _ => rfl
  · exact ⟨hadmits.1, rfl, rfl, .inl rfl⟩

/-- Where a name is not followed by a parenthesis or a period, it is an
operand and maybe all of a count of TOP. -/
theorem Unquotes.closed {s : Spot} {k : List Spot} {tokens tokens' : List Token}
    (h : Unquotes ⟨s, k⟩ tokens tokens') (hs : s = .behind ∨ s = .counted)
    (hparenthesis : tokens.head? ≠ some (.sign .openParen))
    (hperiod : tokens.head? ≠ some (.sign .period)) : Unquotes ⟨s.closed, k⟩ tokens tokens' := by
  rcases hs with rfl | rfl
  · exact h
  · refine h.move (fun t ht => ?_) fun word next _ hadmits => hadmits
    cases t with
    | keyword word => cases word <;> rfl
    | sign mark =>
        cases mark <;> first
          | rfl
          | (cases k <;> rfl)
          | exact absurd ht hparenthesis
          | exact absurd ht hperiod
    | _ => rfl

end Place

/-- Two places of the two texts that correspond. -/
structure Corresponds (s : Place) (c c' : Cursor) : Prop where
  tokens : s.Unquotes c.tokens c'.tokens
  ordinals : c.ordinals = c'.ordinals

-- ============================================================ tracking

variable {α β γ δ : Type} {K : List Token → Prop} {s s' : Place} {k : List Spot}
  {S : α → β → Place → Prop} {T : γ → δ → Place → Prop} {x : Parser α} {y : Parser β}
  {f : α → Parser γ} {h : β → Parser δ}

/-- What two readers end with: related results at places that correspond,
or failures. -/
inductive Outcomes (S : α → β → Place → Prop) :
    Result (α × Cursor) → Result (β × Cursor) → Prop
  | ok {a : α} {b : β} {c c' : Cursor} {s : Place} (hvalue : S a b s)
      (hcursor : Corresponds s c c') : Outcomes S (.ok (a, c)) (.ok (b, c'))
  | error (e e' : Error) : Outcomes S (.error e) (.error e')

/-- From a place on where something is known of what is left of the text
with quotes, a reader of that text and one of the other track each
other. -/
def TracksOn (K : List Token → Prop) (s : Place) (x : Parser α) (y : Parser β)
    (S : α → β → Place → Prop) : Prop :=
  ∀ around size c c', K c.tokens → Corresponds s c c' →
    Outcomes S (x.perform around c) (y.perform { around with size } c')

/-- They track each other whatever is left. -/
abbrev Tracks (s : Place) (x : Parser α) (y : Parser β) (S : α → β → Place → Prop) : Prop :=
  TracksOn (fun _ => True) s x y S

/-- A reader that reads both texts with the same result, which has a
property together with the place that it gets to. -/
abbrev Passes (s : Place) (x : Parser α) (P : α → Place → Prop) : Prop :=
  Tracks s x x fun a b s' => a = b ∧ P a s'

/-- One that gets to a certain place. -/
abbrev Leads (s : Place) (x : Parser α) (s' : Place) : Prop :=
  Passes s x fun _ t => t = s'

theorem TracksOn.imp {S' : α → β → Place → Prop} (hx : TracksOn K s x y S)
    (hS : ∀ a b t, S a b t → S' a b t) : TracksOn K s x y S' := by
  intro around size c c' hK hc
  have hresults := hx around size c c' hK hc
  generalize x.perform around c = r, y.perform { around with size } c' = r' at hresults
  cases hresults with
  | ok hvalue hcursor => exact .ok (hS _ _ _ hvalue) hcursor
  | error e e' => exact .error e e'

theorem TracksOn.mono {L : List Token → Prop} (hx : TracksOn L s x y S)
    (hL : ∀ tokens, K tokens → L tokens) : TracksOn K s x y S :=
  fun around size c c' hK hc => hx around size c c' (hL _ hK) hc

theorem Tracks.on (hx : Tracks s x y S) : TracksOn K s x y S :=
  hx.mono fun _ _ => trivial

/-- Another place will do if, with what is known, it admits what is
left. -/
theorem Tracks.move (hs : ∀ tokens tokens', K tokens → s.Unquotes tokens tokens' →
    s'.Unquotes tokens tokens') (hx : Tracks s' x y S) : TracksOn K s x y S :=
  fun around size c c' hK hc => hx around size c c' trivial ⟨hs _ _ hK hc.tokens, hc.ordinals⟩

theorem tracks_pure {a : α} {b : β} (hvalue : S a b s) : TracksOn K s (pure a) (pure b) S :=
  fun _ _ _ _ _ hc => .ok hvalue hc

theorem leads_pure {a : α} : Leads s (pure a) s :=
  tracks_pure ⟨rfl, rfl⟩

theorem tracks_of_fails (hx : Copy.Fails x) (hy : Copy.Fails y) : TracksOn K s x y S := by
  intro around size c c' _ _
  obtain ⟨e, he⟩ := hx around c
  obtain ⟨e', he'⟩ := hy { around with size } c'
  rw [he, he']
  exact .error e e'

theorem tracks_fault {m m' : Malformed} :
    TracksOn K s (fault m : Parser α) (fault m' : Parser β) S :=
  tracks_of_fails (Copy.fails_fault m) (Copy.fails_fault m')

theorem tracks_fault_bind {m m' : Malformed} :
    TracksOn K s (fault m >>= f) (fault m' >>= h) T :=
  tracks_of_fails (Copy.fails_bind (Copy.fails_fault m)) (Copy.fails_bind (Copy.fails_fault m'))

theorem tracks_throw {e : Error} :
    TracksOn K s (throw e : Parser α) (throw e : Parser β) S :=
  tracks_of_fails (Copy.fails_throw e) (Copy.fails_throw e)

theorem tracks_throw_bind {e : Error} :
    TracksOn K s (throw e >>= f) (throw e >>= h) T :=
  tracks_of_fails (Copy.fails_bind (Copy.fails_throw e)) (Copy.fails_bind (Copy.fails_throw e))

/-- What the first reader leaves is known to the second. -/
theorem TracksOn.bindOn {L : α → List Token → Prop} (hx : TracksOn K s x y S)
    (hleft : ∀ around c a d, K c.tokens → x.perform around c = .ok (a, d) → L a d.tokens)
    (hf : ∀ a b t, S a b t → TracksOn (L a) t (f a) (h b) T) :
    TracksOn K s (x >>= f) (y >>= h) T := by
  intro around size c c' hK hc
  have hfirst := hx around size c c' hK hc
  generalize hr : x.perform around c = r, hr' : y.perform { around with size } c' = r' at hfirst
  cases hfirst with
  | ok hvalue hcursor =>
      rw [perform_bind hr, perform_bind hr']
      exact hf _ _ _ hvalue _ _ _ _ (hleft _ _ _ _ hK hr) hcursor
  | error e e' =>
      rw [perform_bind_error hr, perform_bind_error hr']
      exact .error e e'

theorem TracksOn.bind (hx : TracksOn K s x y S)
    (hf : ∀ a b t, S a b t → Tracks t (f a) (h b) T) :
    TracksOn K s (x >>= f) (y >>= h) T :=
  hx.bindOn (fun _ _ _ _ _ _ => trivial) hf

/-- Where the results are the same, one of them is enough. -/
theorem TracksOn.passes {x : Parser α} {P : α → Place → Prop} {f : α → Parser γ}
    {h : α → Parser δ} (hx : Passes s x P) (hf : ∀ a t, P a t → Tracks t (f a) (h a) T) :
    Tracks s (x >>= f) (x >>= h) T :=
  hx.bind fun a _ t hsame => hsame.1 ▸ hf a t hsame.2

theorem TracksOn.leads {x : Parser α} {f : α → Parser γ} {h : α → Parser δ} (hx : Leads s x s')
    (hf : ∀ a, Tracks s' (f a) (h a) T) : Tracks s (x >>= f) (x >>= h) T :=
  hx.passes fun a _ hplace => hplace ▸ hf a

/-- A reader that ends with what it makes of another one's result. -/
theorem Leads.pure {x : Parser α} {f : α → γ} (hx : Leads s x s') :
    Leads s (do Pure.pure (f (← x))) s' :=
  hx.leads fun _ => leads_pure

theorem TracksOn.map {x : Parser α} {P : α → Place → Prop} (f : α → γ)
    (hx : TracksOn K s x x fun a b t => a = b ∧ P a t) {Q : γ → Place → Prop}
    (hQ : ∀ a t, P a t → Q (f a) t) :
    TracksOn K s (f <$> x) (f <$> x) fun a b t => a = b ∧ Q a t := by
  rw [← bind_pure_comp]
  exact hx.bind fun a b t h => tracks_pure ⟨congrArg f h.1, hQ a t h.2⟩

theorem Leads.map {x : Parser α} (f : α → γ) (hx : Leads s x s') : Leads s (f <$> x) s' :=
  TracksOn.map f hx fun _ _ => id

/-- Both sides take the same branch. -/
theorem TracksOn.ite {p q : Prop} [Decidable p] [Decidable q] {x' : Parser α} {y' : Parser β}
    (hiff : p ↔ q) (hx : p → TracksOn K s x y S) (hx' : ¬p → TracksOn K s x' y' S) :
    TracksOn K s (if p then x else x') (if q then y else y') S := by
  by_cases hp : p
  · rw [if_pos hp, if_pos (hiff.mp hp)]
    exact hx hp
  · rw [if_neg hp, if_neg (mt hiff.mpr hp)]
    exact hx' hp

/-- A reader that is left out on a condition, before another. -/
theorem TracksOn.when {p : Prop} [Decidable p] {x : Parser Unit} {f h : Unit → Parser γ}
    {T : γ → γ → Place → Prop} (hx : Leads s x s) (hf : Tracks s (f ()) (h ()) T) :
    Tracks s (if p then x >>= f else f ()) (if p then x >>= h else h ()) T :=
  .ite Iff.rfl (fun _ => hx.leads fun _ => hf) fun _ => hf

-- =================================================== what is read around

theorem tracks_read {f : Surroundings → Parser γ} {h : Surroundings → Parser δ}
    (hf : ∀ around size, Tracks s (f around) (h { around with size }) T) :
    Tracks s (read >>= f) (read >>= h) T :=
  fun around size c c' hnil hc => hf around size around size c c' hnil hc

theorem leads_require (condition : DialectVersion → Bool) (feature : Feature) :
    Leads s (require condition feature) s :=
  tracks_read fun _ _ => .ite Iff.rfl (fun _ => leads_pure) fun _ => tracks_throw

/-- What is known of the next tokens is so behind a requirement. -/
theorem tracksOn_require {condition : DialectVersion → Bool} {feature : Feature}
    {f : Unit → Parser γ} {h : Unit → Parser δ} (hf : TracksOn K s (f ()) (h ()) T) :
    TracksOn K s (require condition feature >>= f) (require condition feature >>= h) T := by
  refine (leads_require condition feature).on.bindOn (L := fun _ => K)
    (fun around c _ d hK hperform => ?_) fun _ _ t ht => ht.2 ▸ hf
  unfold require at hperform
  rw [perform_bind rfl] at hperform
  dsimp only at hperform
  split at hperform
  · cases hperform
    exact hK
  · cases hperform

-- ======================================================== single tokens

private theorem perform_next_of_cons (around : Surroundings) {c : Cursor} {t : Token}
    {rest : List Token} (hc : c.tokens = t :: rest) :
    ∃ d, next.perform around c = .ok (t, d) ∧ d.tokens = rest ∧ d.ordinals = c.ordinals :=
  takes_next c hc

/-- What begins with the next token, where something is known of what is
behind a name that is bare in the other text. -/
theorem tracks_next_of_admits {f : Token → Parser γ} {h : Token → Parser δ}
    (hsame : ∀ t, Tracks (s.after t) (f t) (h t) T)
    (hbare : ∀ word, TracksOn (fun tokens => s.spot.Admits word tokens.head?)
      (s.after (.ident word.word)) (f (.ident word.word)) (h (.keyword word)) T) :
    Tracks s (next >>= f) (next >>= h) T := by
  intro around size c c' _ hc
  obtain ⟨htokens, hordinals⟩ := hc
  generalize hq : c.tokens = tokens, hb : c'.tokens = tokens' at htokens
  cases htokens with
  | nil =>
      obtain ⟨e, he⟩ := Copy.perform_next_nil around hq
      obtain ⟨e', he'⟩ := Copy.perform_next_nil { around with size } hb
      rw [perform_bind_error he, perform_bind_error he']
      exact .error e e'
  | same t hrest =>
      obtain ⟨d, hd, rfl, hordinals₁⟩ := perform_next_of_cons around hq
      obtain ⟨d', hd', rfl, hordinals₂⟩ := perform_next_of_cons { around with size } hb
      rw [perform_bind hd, perform_bind hd']
      exact hsame t around size d d' trivial
        ⟨hrest, by rw [hordinals₁, hordinals₂, hordinals]⟩
  | bare hadmits hrest =>
      obtain ⟨d, hd, rfl, hordinals₁⟩ := perform_next_of_cons around hq
      obtain ⟨d', hd', rfl, hordinals₂⟩ := perform_next_of_cons { around with size } hb
      rw [perform_bind hd, perform_bind hd']
      exact hbare _ around size d d' hadmits
        ⟨hrest, by rw [hordinals₁, hordinals₂, hordinals]⟩

/-- What begins with the next token. -/
theorem tracks_next {f : Token → Parser γ} {h : Token → Parser δ}
    (hf : ∀ t t', s.spot.Pairs t t' → Tracks (s.after t) (f t) (h t') T) :
    Tracks s (next >>= f) (next >>= h) T :=
  tracks_next_of_admits (fun t => hf t t (.same t)) fun _ around size c c' hadmits hc =>
    hf _ _ (.bare hadmits.1 hadmits.2.1 hadmits.2.2.1) around size c c' trivial hc

/-- What begins with a token that is known to be next, and that no name
stands for. -/
theorem tracksOn_next {t : Token} (ht : s.spot.mistakes t = false)
    (hhead : ∀ tokens, K tokens → tokens.head? = some t) {f : Token → Parser γ}
    {h : Token → Parser δ}
    (hf : TracksOn (fun rest => K (t :: rest)) (s.after t) (f t) (h t) T) :
    TracksOn K s (next >>= f) (next >>= h) T := by
  intro around size c c' hK hc
  obtain ⟨htokens, hordinals⟩ := hc
  obtain ⟨rest, hrest⟩ := List.head?_eq_some_iff.mp (hhead _ hK)
  generalize hb : c'.tokens = tokens' at htokens
  rw [hrest] at htokens hK
  cases htokens with
  | same t htokens =>
      obtain ⟨d, hd, rfl, hordinals₁⟩ := perform_next_of_cons around hrest
      obtain ⟨d', hd', rfl, hordinals₂⟩ := perform_next_of_cons { around with size } hb
      rw [perform_bind hd, perform_bind hd']
      exact hf around size d d' hK ⟨htokens, by rw [hordinals₁, hordinals₂, hordinals]⟩
  | bare hadmits htokens => exact absurd (hadmits.2.1.symm.trans ht) nofun

/-- What looks at the next token first. -/
theorem tracks_peek {f : Option Token → Parser γ} {h : Option Token → Parser δ}
    (hf : ∀ o o', Option.Rel s.spot.Pairs o o' →
      TracksOn (fun tokens => tokens.head? = o) s (f o) (h o') T) :
    Tracks s (peek >>= f) (peek >>= h) T := by
  intro around size c c' _ hc
  have hempty : c.tokens = [] ↔ c'.tokens = [] := by
    rw [← List.length_eq_zero_iff, ← List.length_eq_zero_iff, hc.tokens.length_eq]
  by_cases hend : c.tokens = [] ∧ around.failure ≠ none
  · obtain ⟨lexemes, position, ordinals⟩ := c
    obtain ⟨lexemes', position', ordinals'⟩ := c'
    obtain ⟨version, failure, end', upsert⟩ := around
    cases List.map_eq_nil_iff.mp hend.1
    cases List.map_eq_nil_iff.mp (hempty.mp hend.1)
    cases failure with
    | none => exact absurd rfl hend.2
    | some failure => exact .error _ _
  · have hseen : c.tokens = [] → around.failure = none :=
      fun hnil => by_contra fun hfailure => hend ⟨hnil, hfailure⟩
    have hpeek : peek.perform around c = .ok (c.tokens.head?, c) :=
      perform_peek_eq_ok.mpr ⟨rfl, rfl, hseen⟩
    have hpeek' : peek.perform { around with size } c' = .ok (c'.tokens.head?, c') :=
      perform_peek_eq_ok.mpr ⟨rfl, rfl, fun hnil => hseen (hempty.mpr hnil)⟩
    rw [perform_bind hpeek, perform_bind hpeek']
    exact hf _ _ hc.tokens.head around size c c' rfl hc

private theorem perform_peekSecond (around : Surroundings) (c : Cursor) :
    peekSecond.perform around c = .ok (c.tokens[1]?, c) := by
  unfold Cursor.tokens
  rw [List.getElem?_map]
  rfl

/-- What looks at the token after the next one. -/
theorem tracksOn_peekSecond {f : Option Token → Parser γ} {h : Option Token → Parser δ}
    (hf : ∀ o o' (u : Spot), Option.Rel u.Pairs o o' →
      TracksOn (fun tokens => K tokens ∧ tokens[1]? = o) s (f o) (h o') T) :
    TracksOn K s (peekSecond >>= f) (peekSecond >>= h) T := by
  intro around size c c' hK hc
  obtain ⟨u, hsecond⟩ := hc.tokens.second
  rw [perform_bind (perform_peekSecond around c), perform_bind (perform_peekSecond _ c')]
  exact hf _ _ u hsecond around size c c' ⟨hK, rfl⟩ hc

/-- What is made of the next token, if it is known. -/
theorem passes_nextMap {f : Token → Option α}
    (hf : ∀ word, word.isUnreserved = true → s.spot.names = true → s.spot.keeps word = false →
      f (.ident word.word) = none ∧ f (.keyword word) = none) :
    Passes s (nextMap? f) fun o t =>
      o = none ∧ t = s ∨ ∃ u, f u = o ∧ o ≠ none ∧ t = s.after u := by
  intro around size c c' _ hc
  have hnone (hq : ∀ t, c.tokens.head? = some t → f t = none)
      (hb : ∀ t, c'.tokens.head? = some t → f t = none) :
      Outcomes (fun o o' t => o = o' ∧
          (o = none ∧ t = s ∨ ∃ u, f u = o ∧ o ≠ none ∧ t = s.after u))
        ((nextMap? f).perform around c) ((nextMap? f).perform { around with size } c') := by
    rw [Copy.perform_nextMap_declines hq, Copy.perform_nextMap_declines hb]
    exact .ok ⟨rfl, .inl ⟨rfl, rfl⟩⟩ hc
  obtain ⟨htokens, hordinals⟩ := hc
  generalize hq : c.tokens = tokens, hb : c'.tokens = tokens' at htokens
  cases htokens with
  | nil => exact hnone (by rw [hq]; nofun) (by rw [hb]; nofun)
  | same t hrest =>
      cases ht : f t with
      | none =>
          refine hnone ?_ ?_
          · rw [hq]
            rintro u ⟨⟩
            exact ht
          · rw [hb]
            rintro u ⟨⟩
            exact ht
      | some a =>
          have htaken (around : Surroundings) {c : Cursor} {rest : List Token}
              (hc : c.tokens = t :: rest) :
              ∃ d, (nextMap? f).perform around c = .ok (some a, d) ∧ d.tokens = rest ∧
                d.ordinals = c.ordinals :=
            takes_nextMap ht c hc
          obtain ⟨d, hd, rfl, hordinals₁⟩ := htaken around hq
          obtain ⟨d', hd', rfl, hordinals₂⟩ := htaken { around with size } hb
          rw [hd, hd']
          exact .ok ⟨rfl, .inr ⟨t, ht, nofun, rfl⟩⟩
            ⟨hrest, by rw [hordinals₁, hordinals₂, hordinals]⟩
  | bare hadmits hrest =>
      obtain ⟨hident, hkeyword⟩ := hf _ hadmits.1 hadmits.2.1 hadmits.2.2.1
      refine hnone ?_ ?_
      · rw [hq]
        rintro u ⟨⟩
        exact hident
      · rw [hb]
        rintro u ⟨⟩
        exact hkeyword

/-- Whether a token is next, which stands for no name. -/
theorem passes_accept {t : Token} (ht : s.spot.mistakes t = false) :
    Passes s (accept t) fun found u => u = if found then s.after t else s := by
  refine TracksOn.passes (passes_nextMap fun word hword hnames hkeeps => ?_) fun o u ho => ?_
  · have hpairs : s.spot.Pairs (.ident word.word) (.keyword word) := .bare hword hnames hkeeps
    have hident : Token.ident word.word ≠ t := by
      rintro rfl
      exact absurd (hnames.symm.trans ht) nofun
    exact ⟨if_neg hident, if_neg (mt (hpairs.eq_iff ht).mpr hident)⟩
  · refine tracks_pure ⟨rfl, ?_⟩
    rcases ho with ⟨rfl, rfl⟩ | ⟨found, hfound, hsome, rfl⟩
    · rfl
    · split at hfound
      · next heq =>
          subst heq hfound
          rfl
      · exact absurd hfound.symm hsome

/-- What depends on whether a token is next, and knows if it is not. -/
theorem tracksOn_accept {t : Token} (ht : s.spot.mistakes t = false) {f : Bool → Parser γ}
    {h : Bool → Parser δ} (htrue : Tracks (s.after t) (f true) (h true) T)
    (hfalse : TracksOn (fun tokens => K tokens ∧ tokens.head? ≠ some t) s (f false) (h false) T) :
    TracksOn K s (accept t >>= f) (accept t >>= h) T := by
  refine (passes_accept ht).on.bindOn
    (L := fun found tokens => found = false → K tokens ∧ tokens.head? ≠ some t)
    (fun around c found d hK hperform hfound => ?_) fun found _ u hu => ?_
  · rcases perform_accept hperform with ⟨htrue, -⟩ | ⟨-, hhead, rfl⟩
    · exact absurd (hfound.symm.trans htrue) nofun
    · exact ⟨hK, hhead⟩
  · obtain ⟨rfl, rfl⟩ := hu
    cases found with
    | true => exact htrue.on
    | false => exact hfalse.mono fun _ h => h rfl

/-- What depends on whether a token is next, which stands for no name. -/
theorem tracks_accept {t : Token} (ht : s.spot.mistakes t = false) {x x' : Parser γ}
    {y y' : Parser δ} (hx : Tracks (s.after t) x y T) (hx' : Tracks s x' y' T) :
    Tracks s (accept t >>= fun found => if found = true then x else x')
      (accept t >>= fun found => if found = true then y else y') T :=
  tracksOn_accept ht hx hx'.on

/-- What passes over a token that leads nowhere else. -/
theorem leads_accept {t : Token} (ht : s.spot.mistakes t = false) (hafter : s.after t = s) :
    Leads s (accept t) s := by
  refine (passes_accept ht).imp fun found _ u hu => ⟨hu.1, ?_⟩
  rw [hu.2, hafter, ite_self]

theorem leads_skipOver {t : Token} (ht : s.spot.mistakes t = false) (hafter : s.after t = s) :
    Leads s (skipOver t) s :=
  (leads_accept ht hafter).leads fun _ => leads_pure

theorem leads_expect {t : Token} (ht : s.spot.mistakes t = false) :
    Leads s (expect t) (s.after t) := by
  refine tracks_next fun u u' hpairs => ?_
  by_cases hu : u = t
  · have hu' : u' = t := (hpairs.eq_iff ht).mp hu
    rw [if_pos hu, if_pos hu', hu]
    exact leads_pure
  · rw [if_neg hu, if_neg (mt (hpairs.eq_iff ht).mpr hu)]
    exact tracks_fault

theorem nameOf_pairs {s : Spot} {t t' : Token} (h : s.Pairs t t') : nameOf? t = nameOf? t' := by
  cases h with
  | same t => rfl
  | bare hword hnames hkeeps => exact (if_pos hword).symm

/-- A name, be it a keyword, leads where a name leads. -/
theorem after_name {s : Spot} (hs : s.plain = true) {t : Token} {name : String}
    (ht : nameOf? t = some name) : Place.after ⟨s, k⟩ t = ⟨s.named, k⟩ := by
  cases t with
  | ident name =>
      rw [Place.after_eq (.ident name) nofun nofun]
      cases s <;> first | rfl | cases hs
  | keyword word =>
      have hword : word.isUnreserved = true := by
        by_contra hreserved
        unfold nameOf? at ht
        simp [hreserved] at ht
      rw [Place.after_eq (.keyword word) nofun nofun, Spot.after_unreserved (.inl hs) hword]
  | number text => cases ht
  | string text => cases ht
  | parameter name => cases ht
  | sign mark => cases ht

theorem leads_identifier {s : Spot} (hs : s.plain = true) :
    Leads ⟨s, k⟩ identifier ⟨s.named, k⟩ := by
  refine tracks_next fun t t' hpairs => ?_
  rw [← nameOf_pairs hpairs]
  cases hname : nameOf? t with
  | none => exact tracks_fault
  | some name =>
      rw [after_name hs hname]
      exact leads_pure

-- =========================================================== repetition

/-- A repetition is one of as many rounds as both texts have tokens, and
one more. -/
theorem tracks_iterate {step : α → Parser (Option α)} {a : α} {S : α → α → Place → Prop}
    (hrounds : ∀ count, TracksOn (fun tokens => tokens.length ≤ count) s
      (iterateWithin step (count + 1) a) (iterateWithin step (count + 1) a) S) :
    Tracks s (iterate step a) (iterate step a) S := by
  intro around size c c' _ hc
  have hlength : c.lexemes.length = c'.lexemes.length := by
    have htokens := hc.tokens.length_eq
    unfold Cursor.tokens at htokens
    rwa [List.length_map, List.length_map] at htokens
  show Outcomes _ ((iterateWithin step (c.lexemes.length + 1) a).perform around c)
    ((iterateWithin step (c'.lexemes.length + 1) a).perform { around with size } c')
  rw [← hlength]
  exact hrounds _ around size c c' (Nat.le_of_eq (List.length_map _)) hc

/-- A repetition gets to where a round gets to. At least one round is
done, so nothing is asked of where the repetition begins. -/
theorem passes_iterate {P : α → Place → Prop} {I : Place → Prop} {step : α → Parser (Option α)}
    (hstep : ∀ a s, P a s → Passes s (step a) fun o t => I t ∧ ∀ b ∈ o, P b t) {a : α}
    (ha : P a s) : Passes s (iterate step a) fun _ t => I t := by
  have hround (count : Nat) (hrest : ∀ a s, P a s → I s →
        Passes s (iterateWithin step count a) fun _ t => I t) (a : α) (s : Place) (ha : P a s) :
      Passes s (iterateWithin step (count + 1) a) fun _ t => I t := by
    refine TracksOn.passes (hstep a s ha) fun o t ht => ?_
    cases o with
    | none => exact tracks_pure ⟨rfl, ht.1⟩
    | some b => exact hrest b t (ht.2 b rfl) ht.1
  have hrounds (count : Nat) : ∀ a s, P a s → I s →
      Passes s (iterateWithin step count a) fun _ t => I t := by
    induction count with
    | zero => exact fun a s _ hs => tracks_pure ⟨rfl, hs⟩
    | succ count ih => exact fun a s ha _ => hround count ih a s ha
  exact tracks_iterate fun count => (hround count (hrounds count) a s ha).on

theorem leads_iterate {step : α → Parser (Option α)} (hstep : ∀ a, Leads s (step a) s) (a : α) :
    Leads s (iterate step a) s := by
  refine passes_iterate (P := fun _ t => t = s) (fun a t ht => ?_) rfl
  subst ht
  exact (hstep a).imp fun _ _ _ h => ⟨h.1, h.2, fun _ _ => h.2⟩

/-- A repetition that gets elsewhere in its last round. If every round
takes a token, or every one but the first, it does not end before, unless
nothing is left and the place is any. -/
theorem leads_iterate_last {P : α → Place → Prop} {n : α → Nat} {step : α → Parser (Option α)}
    (hstep : ∀ a s, P a s → Passes s (step a) fun o t => (o = none → t = s') ∧ ∀ b ∈ o, P b t)
    (hlength : ∀ around a b c d, (step a).perform around c = .ok (some b, d) →
      n b = 1 ∧ d.tokens.length + n a ≤ c.tokens.length)
    (hn : ∀ a, n a ≤ 1) {a : α} (ha : P a s) : Leads s (iterate step a) s' := by
  have hrounds (count : Nat) : ∀ a s, P a s →
      TracksOn (fun tokens => tokens.length < count + n a) s (iterateWithin step count a)
        (iterateWithin step count a) fun a b t => a = b ∧ t = s' := by
    induction count with
    | zero =>
        intro a s _ around size c c' hleft hc
        have hle := hn a
        have hnil : c.tokens = [] := List.eq_nil_of_length_eq_zero (by omega)
        have hnil' : c'.tokens = [] := by
          rw [← List.length_eq_zero_iff, ← hc.tokens.length_eq, hnil, List.length_nil]
        refine .ok ⟨rfl, rfl⟩ ⟨?_, hc.ordinals⟩
        rw [hnil, hnil']
        exact .nil _
    | succ count ih =>
        intro a s ha
        refine (hstep a s ha).on.bindOn
          (L := fun o tokens => ∀ b ∈ o, tokens.length < count + n b) ?_ fun o _ t ht => ?_
        · rintro around c _ d hleft hperform b ⟨⟩
          obtain ⟨hone, hle⟩ := hlength around a b c d hperform
          omega
        · obtain ⟨rfl, hnone, hsome⟩ := ht
          cases o with
          | none => exact tracks_pure ⟨rfl, hnone rfl⟩
          | some b => exact (ih b t (hsome b rfl)).mono fun _ hleft => hleft b rfl
  exact tracks_iterate fun count => (hrounds (count + 1) a s ha).mono fun _ hle => by omega

/-- Items with commas between them. -/
theorem passes_commaFold {I : Place → Prop} {item : α → Parser α}
    (hs : ∀ a, Passes s (item a) fun _ t => I t)
    (hoperand : ∀ a, Passes ⟨.operand, k⟩ (item a) fun _ t => I t)
    (hcomma : ∀ t, I t → t.after (.sign .comma) = ⟨.operand, k⟩) (a : α) :
    Passes s (commaFold item a) fun _ t => I t := by
  refine TracksOn.passes (hs a) fun b t ht => ?_
  refine passes_iterate (P := fun _ t => I t) (fun b t ht => ?_) ht
  refine tracks_accept rfl ?_ (tracks_pure ⟨rfl, ht, nofun⟩)
  rw [hcomma t ht]
  exact (hoperand b).map some fun c u hu => ⟨hu, fun _ _ => hu⟩

theorem leads_commaList {item : Parser α} (hs : Leads s item ⟨.behind, k⟩)
    (hoperand : Leads ⟨.operand, k⟩ item ⟨.behind, k⟩) :
    Leads s (commaList item) ⟨.behind, k⟩ :=
  passes_commaFold (I := (· = ⟨.behind, k⟩)) (fun _ => hs.pure) (fun _ => hoperand.pure)
    (fun _ ht => ht ▸ rfl) []

/-- One more item of a list, or the parenthesis that closes it. -/
def nextItem? (item : Parser α) (items : List α) : Parser (Option (List α)) := do
  if ← accept Sign.closeParen then Pure.pure none
  else
    if !items.isEmpty then expect Sign.comma
    Pure.pure (some (items ++ [← item]))

/-- Every item but the first takes a token, the comma before it. -/
private theorem nextItem_length {item : Parser α} (hmoves : ∀ upsert, Moves upsert item)
    {items found : List α} {around : Surroundings} {c d : Cursor}
    (h : (nextItem? item items).perform around c = .ok (some found, d)) :
    found ≠ [] ∧ d.tokens.length + min items.length 1 ≤ c.tokens.length := by
  have hread {c d : Cursor} (h : (do Pure.pure (some (items ++ [← item])) :
      Parser (Option (List α))).perform around c = .ok (some found, d)) :
      found ≠ [] ∧ d.tokens.length ≤ c.tokens.length := by
    obtain ⟨a, c₁, hperform, hpure⟩ := perform_bind_eq_ok.mp h
    cases hpure
    obtain ⟨-, hsuffix⟩ := hmoves around.upsert around c a d rfl hperform
    exact ⟨by simp, (hsuffix.map _).length_le⟩
  obtain ⟨closes, c₁, haccept, hrest⟩ := perform_bind_eq_ok.mp h
  rcases perform_accept haccept with ⟨rfl, -⟩ | ⟨rfl, -, rfl⟩
  · cases hrest
  · rw [if_neg Bool.false_ne_true] at hrest
    split at hrest
    · obtain ⟨_, c₂, hcomma, hitems⟩ := perform_bind_eq_ok.mp hrest
      obtain ⟨hfound, hle⟩ := hread hitems
      have htaken : c₁.tokens.length = c₂.tokens.length + 1 := by
        rw [perform_expect hcomma, List.length_cons]
      exact ⟨hfound, by omega⟩
    · next hempty =>
        obtain ⟨hfound, hle⟩ := hread hrest
        have hnil : items = [] := by simpa using hempty
        exact ⟨hfound, by rw [hnil]; exact hle⟩

/-- A list gets behind the parenthesis that closes it. -/
theorem leads_closedList {e : Spot} {item : Parser α} (hmoves : ∀ upsert, Moves upsert item)
    (hitem : Leads ⟨.operand, e :: k⟩ item ⟨.behind, e :: k⟩) :
    Leads ⟨.operand, e :: k⟩ (iterate (nextItem? item) []) ⟨e, k⟩ := by
  refine leads_iterate_last (P := fun items t => t = ⟨.operand, e :: k⟩ ∧ items = [] ∨
    t = ⟨.behind, e :: k⟩ ∧ items ≠ []) (fun items t ht => ?_)
    (fun around items found c d hperform => ?_) (fun items => Nat.min_le_right items.length 1)
    (.inl ⟨rfl, rfl⟩)
  · have hread : Passes ⟨.operand, e :: k⟩ (do Pure.pure (some (items ++ [← item]))) fun o u =>
        (o = none → u = ⟨e, k⟩) ∧ ∀ found ∈ o, u = ⟨.operand, e :: k⟩ ∧ found = [] ∨
          u = ⟨.behind, e :: k⟩ ∧ found ≠ [] := by
      refine hitem.leads fun a => tracks_pure ⟨rfl, nofun, ?_⟩
      rintro _ ⟨⟩
      exact .inr ⟨rfl, by simp⟩
    rcases ht with ⟨rfl, rfl⟩ | ⟨rfl, hitems⟩
    · exact tracks_accept rfl (tracks_pure ⟨rfl, fun _ => rfl, nofun⟩) hread
    · refine tracks_accept rfl (tracks_pure ⟨rfl, fun _ => rfl, nofun⟩)
        (.ite Iff.rfl (fun _ => ?_) fun hempty => ?_)
      · exact TracksOn.leads (leads_expect rfl) fun _ => hread
      · exact absurd (by simpa using hempty) hitems
  · obtain ⟨hfound, hle⟩ := nextItem_length hmoves hperform
    exact ⟨Nat.min_eq_right (List.length_pos_of_ne_nil hfound), hle⟩

/-- A parenthesis that is closed where the reader between the two ends. -/
theorem leads_parenthesized {e : Spot} {x : Parser α} {P : α → Place → Prop}
    (hopen : s.after (.sign .openParen) = ⟨.operand, e :: k⟩)
    (hclose : ∀ a t, P a t → t.after (.sign .closeParen) = ⟨e, k⟩)
    (hx : Passes ⟨.operand, e :: k⟩ x P) : Leads s (parenthesized x) ⟨e, k⟩ := by
  refine TracksOn.leads (leads_expect rfl) fun _ => ?_
  rw [hopen]
  refine hx.passes fun a t ht => TracksOn.leads (leads_expect rfl) fun _ => ?_
  rw [hclose a t ht]
  exact leads_pure

/-- Where the reader gets behind something. -/
theorem Leads.parenthesized {e : Spot} {x : Parser α}
    (hopen : s.after (.sign .openParen) = ⟨.operand, e :: k⟩)
    (hx : Leads ⟨.operand, e :: k⟩ x ⟨.behind, e :: k⟩) :
    Leads s (Parser.parenthesized x) ⟨e, k⟩ :=
  leads_parenthesized (P := fun _ t => t = ⟨.behind, e :: k⟩) hopen (fun _ _ ht => ht ▸ rfl) hx

theorem leads_identifierList {e : Spot}
    (hopen : s.after (.sign .openParen) = ⟨.operand, e :: k⟩) :
    Leads s identifierList ⟨e, k⟩ :=
  Leads.parenthesized hopen (leads_commaList (leads_identifier rfl)
    (leads_identifier rfl))

/-- A clause behind an operand, a table or another clause. -/
theorem leads_clause {word : Keyword} {x : Parser α}
    (hx : Leads (Place.after ⟨.behind, k⟩ (.keyword word)) x ⟨.behind, k⟩) :
    Leads ⟨.behind, k⟩ (clause? word x) ⟨.behind, k⟩ := by
  refine tracks_accept ?_ (hx.map some) leads_pure
  show (word.isUnreserved && false && !Spot.behind.keeps word) = false
  rw [Bool.and_false]
  rfl

/-- The items of a clause; none if there is no clause. -/
theorem leads_clauseItems {word : Keyword} {x : Parser (List α)}
    (hx : Leads (Place.after ⟨.behind, k⟩ (.keyword word)) x ⟨.behind, k⟩) :
    Leads ⟨.behind, k⟩ (do Pure.pure ((← clause? word x).getD [])) ⟨.behind, k⟩ :=
  (leads_clause hx).leads fun _ => leads_pure

end DialectDb.Unquoting
