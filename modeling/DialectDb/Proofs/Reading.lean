/-
Reasoning about readers. `Takes` says what a reader does on some tokens:
it succeeds with a given result and leaves given tokens. It abstracts
from where the tokens stand, so the same tokens are taken in the same
way at any place of a text. Placeholders are numbered as they are met,
and readers that meet none leave the count; that is part of it.

`Yields` says less: that whatever a reader gives has a property.

There is a rule for each reader of `Grammar.Parser` that expressions
use, and one for doing a reader after another. Repetition is bounded by
the number of tokens left, but `Repeats` asks for any bound that is great
enough, since a loop that is under way has fewer tokens left than it has
rounds.
-/
import DialectDb.Grammar.Parser
import DialectDb.Proofs.Result

namespace DialectDb

/-- The tokens that are left. -/
def Cursor.tokens (c : Cursor) : List Token :=
  c.lexemes.map (·.token)

namespace Parser

variable {α β : Type} {around : Surroundings}

def perform (x : Parser α) (around : Surroundings) (c : Cursor) : Result (α × Cursor) :=
  (x.run around).run c

/-- On these tokens the reader succeeds with a result and leaves those
tokens. -/
def Takes (around : Surroundings) (x : Parser α) (tokens : List Token) (a : α)
    (rest : List Token) : Prop :=
  ∀ c : Cursor, c.tokens = tokens →
    ∃ c' : Cursor, x.perform around c = .ok (a, c') ∧ c'.tokens = rest ∧ c'.ordinals = c.ordinals

-- ============================================================= sequence

/-- Of two readers the second goes on where the first has stopped. -/
theorem perform_bind {x : Parser α} {f : α → Parser β} {c c' : Cursor} {a : α}
    (h : x.perform around c = .ok (a, c')) :
    (x >>= f).perform around c = (f a).perform around c' := by
  show (x.perform around c >>= fun p => (f p.1).perform around p.2) = _
  rw [h]
  rfl

/-- What would be read behind a failure does not matter. -/
theorem perform_bind_error {x : Parser α} {f : α → Parser β} {c : Cursor} {e : Error}
    (h : x.perform around c = .error e) : (x >>= f).perform around c = .error e := by
  show (x.perform around c >>= fun p => (f p.1).perform around p.2) = _
  rw [h]
  rfl

/-- Of two readers one after the other, both have succeeded. -/
theorem perform_bind_eq_ok {x : Parser α} {f : α → Parser β} {c d : Cursor} {b : β} :
    (x >>= f).perform around c = .ok (b, d) ↔
      ∃ a c₁, x.perform around c = .ok (a, c₁) ∧ (f a).perform around c₁ = .ok (b, d) := by
  show (x.perform around c >>= fun p => (f p.1).perform around p.2) = _ ↔ _
  rw [Result.bind_eq_ok]
  exact Prod.exists

/-- Whatever a reader gives has a property. -/
def Yields (x : Parser α) (p : α → Prop) : Prop :=
  ∀ around c a d, x.perform around c = .ok (a, d) → p a

theorem yields_pure {p : α → Prop} {a : α} (h : p a) : Yields (pure a) p := by
  intro around c b d hperform
  cases hperform
  exact h

/-- It is the last reader of a sequence that gives the result. -/
theorem yields_bind {x : Parser α} {f : α → Parser β} {p : β → Prop} (hf : ∀ a, Yields (f a) p) :
    Yields (x >>= f) p := by
  intro around c b d hperform
  obtain ⟨a, c₁, -, hrest⟩ := perform_bind_eq_ok.mp hperform
  exact hf a around c₁ b d hrest

/-- A reader that is left out on a condition, before another. -/
theorem yields_when {c : Prop} [Decidable c] {y : Parser Unit} {f : Unit → Parser β} {p : β → Prop}
    (hf : Yields (f ()) p) : Yields (if c then y >>= f else f ()) p := by
  split
  · exact yields_bind fun _ => hf
  · exact hf

/-- One of two readers, before another. -/
theorem yields_choose {c : Prop} [Decidable c] {x y : Parser α} {f : α → Parser β} {p : β → Prop}
    (hf : ∀ a, Yields (f a) p) : Yields (if c then x >>= f else y >>= f) p := by
  split <;> exact yields_bind hf

/-- The property of an option that its value has another one, if it has
a value. -/
def IfSome (p : α → Prop) (o : Option α) : Prop :=
  ∀ a ∈ o, p a

theorem ifSome_some {p : α → Prop} {a : α} (h : p a) : IfSome p (some a) := by
  intro b hb
  cases hb
  exact h

/-- One more item behind others. -/
theorem forall_mem_concat {p : α → Prop} {a : α} {items : List α} (h : ∀ b ∈ items, p b)
    (ha : p a) : ∀ b ∈ items ++ [a], p b :=
  List.forall_mem_append.mpr ⟨h, List.forall_mem_singleton.mpr ha⟩

theorem takes_pure {a : α} {tokens : List Token} :
    Takes around (pure a) tokens a tokens :=
  fun c hc => ⟨c, rfl, hc, rfl⟩

/-- What is taken one after the other is taken together. -/
theorem takes_bind {x : Parser α} {f : α → Parser β} {tokens mid rest : List Token} {a : α}
    {b : β} (hx : Takes around x tokens a mid) (hf : Takes around (f a) mid b rest) :
    Takes around (x >>= f) tokens b rest := by
  intro c hc
  obtain ⟨c₁, h₁, htokens₁, hordinals₁⟩ := hx c hc
  obtain ⟨c₂, h₂, htokens₂, hordinals₂⟩ := hf c₁ htokens₁
  refine ⟨c₂, ?_, htokens₂, hordinals₂.trans hordinals₁⟩
  rw [perform_bind h₁]
  exact h₂

theorem takes_map {x : Parser α} {f : α → β} {tokens rest : List Token} {a : α}
    (hx : Takes around x tokens a rest) : Takes around (f <$> x) tokens (f a) rest := by
  rw [← bind_pure_comp]
  exact takes_bind hx takes_pure

-- ======================================================== single tokens

/-- A cursor with tokens left has a lexeme with the first of them. -/
private theorem lexemes_of_cons {c : Cursor} {token : Token} {rest : List Token}
    (h : c.tokens = token :: rest) :
    ∃ lexeme lexemes, c.lexemes = lexeme :: lexemes ∧ lexeme.token = token ∧
      lexemes.map (·.token) = rest :=
  List.map_eq_cons_iff.mp h

theorem takes_next {token : Token} {rest : List Token} :
    Takes around next (token :: rest) token rest := by
  intro c hc
  obtain ⟨lexeme, lexemes, hlexemes, rfl, hrest⟩ := lexemes_of_cons hc
  refine ⟨{ c with lexemes, position := lexeme.position }, ?_, hrest, rfl⟩
  cases c
  cases hlexemes
  rfl

theorem takes_peek {token : Token} {rest : List Token} :
    Takes around peek (token :: rest) (some token) (token :: rest) := by
  intro c hc
  obtain ⟨lexeme, lexemes, hlexemes, rfl, -⟩ := lexemes_of_cons hc
  refine ⟨c, ?_, hc, rfl⟩
  cases c
  cases hlexemes
  rfl

/-- `peek` sees the next token, and fails only for a lexical failure
where there is none. -/
theorem perform_peek_eq_ok {c d : Cursor} {o : Option Token} :
    peek.perform around c = .ok (o, d) ↔
      o = c.tokens.head? ∧ d = c ∧ (c.tokens = [] → around.failure = none) := by
  cases c with
  | mk lexemes position ordinals =>
      cases lexemes with
      | cons lexeme lexemes =>
          constructor
          · intro h
            cases h
            exact ⟨rfl, rfl, nofun⟩
          · rintro ⟨rfl, rfl, -⟩
            rfl
      | nil =>
          cases around with
          | mk version failure size upsert =>
              cases failure with
              | none =>
                  constructor
                  · intro h
                    cases h
                    exact ⟨rfl, rfl, fun _ => rfl⟩
                  · rintro ⟨rfl, rfl, -⟩
                    rfl
              | some failure =>
                  constructor
                  · intro h
                    cases h
                  · rintro ⟨-, -, hend⟩
                    cases hend rfl

/-- Where the next token is can always be told. -/
theorem perform_peekPosition (around : Surroundings) (c : Cursor) :
    ∃ position, peekPosition.perform around c = .ok (position, c) := by
  obtain ⟨lexemes, position, ordinals⟩ := c
  cases lexemes <;> exact ⟨_, rfl⟩

/-- Where no lexical failure stands behind the last token, `peek` sees
the end as well. -/
theorem takes_peek_head (h : around.failure = none) {tokens : List Token} :
    Takes around peek tokens tokens.head? tokens := by
  cases tokens with
  | nil =>
      intro c hc
      refine ⟨c, ?_, hc, rfl⟩
      cases around
      cases c
      cases h
      cases List.map_eq_nil_iff.mp hc
      rfl
  | cons token rest => exact takes_peek

/-- The token after the next one is seen without taking either. -/
theorem takes_peekSecond {tokens : List Token} :
    Takes around peekSecond tokens tokens[1]? tokens := by
  intro c hc
  subst hc
  refine ⟨c, ?_, rfl, rfl⟩
  unfold Cursor.tokens
  rw [List.getElem?_map]
  rfl

/-- `nextMap?` takes a token that its function knows. -/
theorem takes_nextMap {f : Token → Option α} {token : Token} {rest : List Token} {a : α}
    (h : f token = some a) : Takes around (nextMap? f) (token :: rest) (some a) rest := by
  intro c hc
  obtain ⟨lexeme, lexemes, hlexemes, rfl, hrest⟩ := lexemes_of_cons hc
  refine ⟨{ c with lexemes, position := lexeme.position }, ?_, hrest, rfl⟩
  cases c
  cases hlexemes
  unfold nextMap?
  rw [perform_bind rfl]
  dsimp only
  rw [h]
  rfl

/-- It leaves one that its function does not know, and the end. -/
theorem takes_nextMap_none {f : Token → Option α} {tokens : List Token}
    (h : ∀ token, tokens.head? = some token → f token = none) :
    Takes around (nextMap? f) tokens none tokens := by
  intro c hc
  refine ⟨c, ?_, hc, rfl⟩
  cases c with
  | mk lexemes position ordinals =>
      cases lexemes with
      | nil => rfl
      | cons lexeme lexemes =>
          have hnone : f lexeme.token = none := h lexeme.token (by rw [← hc]; rfl)
          unfold nextMap?
          rw [perform_bind rfl]
          dsimp only
          rw [hnone]
          rfl

theorem takes_accept {token : Token} {rest : List Token} :
    Takes around (accept token) (token :: rest) true rest :=
  takes_bind (takes_nextMap (if_pos rfl)) takes_pure

theorem takes_accept_false {token : Token} {tokens : List Token}
    (h : tokens.head? ≠ some token) : Takes around (accept token) tokens false tokens := by
  refine takes_bind (takes_nextMap_none fun found hfound => if_neg ?_) takes_pure
  rintro rfl
  exact h hfound

theorem takes_expect {token : Token} {rest : List Token} :
    Takes around (expect token) (token :: rest) () rest := by
  refine takes_bind takes_next ?_
  rw [if_pos rfl]
  exact takes_pure

/-- `accept` takes the token that it is asked for, if that is the next,
and leaves any other. -/
theorem perform_accept {token : Token} {found : Bool} {c d : Cursor}
    (h : (accept token).perform around c = .ok (found, d)) :
    found = true ∧ c.tokens = token :: d.tokens ∨
      found = false ∧ c.tokens.head? ≠ some token ∧ d = c := by
  by_cases hhead : c.tokens.head? = some token
  · obtain ⟨rest, hrest⟩ := List.head?_eq_some_iff.mp hhead
    have htakes : Takes around (accept token) (token :: rest) true rest := takes_accept
    obtain ⟨d', hd', rfl, -⟩ := htakes c hrest
    rw [hd'] at h
    cases h
    exact .inl ⟨rfl, hrest⟩
  · obtain ⟨taken, c₁, hnext, hpure⟩ := perform_bind_eq_ok.mp h
    cases hpure
    rcases c with ⟨_ | ⟨lexeme, lexemes⟩, position, ordinals⟩
    · cases hnext
      exact .inr ⟨rfl, hhead, rfl⟩
    · have hne : lexeme.token ≠ token := fun heq => hhead (congrArg some heq)
      unfold nextMap? at hnext
      rw [perform_bind rfl] at hnext
      dsimp only at hnext
      rw [if_neg hne] at hnext
      cases hnext
      exact .inr ⟨rfl, hhead, rfl⟩

/-- Any other token stays where it is. -/
theorem perform_accept_false {token : Token} {c : Cursor} (h : c.tokens.head? ≠ some token) :
    (accept token).perform around c = .ok (false, c) := by
  have htakes : Takes around (accept token) c.tokens false c.tokens := takes_accept_false h
  obtain ⟨d, hd, -⟩ := htakes c rfl
  rcases perform_accept hd with ⟨htrue, -⟩ | ⟨-, -, rfl⟩
  · cases htrue
  · exact hd

/-- What `expect` has passed over is the token that it expects. -/
theorem perform_expect {token : Token} {c d : Cursor}
    (h : (expect token).perform around c = .ok ((), d)) : c.tokens = token :: d.tokens := by
  obtain ⟨found, c₁, hnext, hcheck⟩ := perform_bind_eq_ok.mp h
  rcases c with ⟨_ | ⟨lexeme, lexemes⟩, position, ordinals⟩
  · cases around with
    | mk version failure size upsert => cases failure <;> cases hnext
  · cases hnext
    split at hcheck
    · next heq =>
        cases hcheck
        exact congrArg (· :: _) heq
    · obtain ⟨_, _, -, hfail⟩ := perform_bind_eq_ok.mp hcheck
      cases hfail

theorem takes_identifier {token : Token} {name : String} {rest : List Token}
    (h : nameOf? token = some name) : Takes around identifier (token :: rest) name rest := by
  refine takes_bind takes_next ?_
  rw [h]
  exact takes_pure

theorem takes_parenthesized {x : Parser α} {tokens rest : List Token} {a : α}
    (h : Takes around x tokens a (Sign.closeParen :: rest)) :
    Takes around (parenthesized x) (Sign.openParen :: tokens) a rest :=
  takes_bind takes_expect (takes_bind h (takes_bind takes_expect takes_pure))

theorem takes_read {tokens : List Token} : Takes around read tokens around tokens :=
  fun c hc => ⟨c, rfl, hc, rfl⟩

-- =========================================================== repetition

/-- From a value, repeating a round takes tokens, makes another value and
leaves the rest, in any number of rounds that is great enough. -/
def Repeats (around : Surroundings) (round : α → Parser (Option α)) (a : α) (tokens : List Token)
    (b : α) (rest : List Token) : Prop :=
  ∀ count, tokens.length < count → Takes around (iterateWithin round count a) tokens b rest

variable {round : α → Parser (Option α)}

/-- A round that declines ends a repetition. -/
theorem Repeats.stop {a : α} {tokens rest : List Token}
    (h : Takes around (round a) tokens none rest) : Repeats around round a tokens a rest := by
  intro count hcount
  obtain ⟨count, rfl⟩ := Nat.exists_eq_succ_of_ne_zero (Nat.ne_of_gt (Nat.zero_lt_of_lt hcount))
  exact takes_bind h takes_pure

/-- One that does not goes before the rest of the repetition. It has to
take a token, so that the rounds that are left are enough. -/
theorem Repeats.step {a b c : α} {tokens mid rest : List Token}
    (h : Takes around (round a) tokens (some b) mid) (hshorter : mid.length < tokens.length)
    (hrest : Repeats around round b mid c rest) : Repeats around round a tokens c rest := by
  intro count hcount
  obtain ⟨count, rfl⟩ := Nat.exists_eq_succ_of_ne_zero (Nat.ne_of_gt (Nat.zero_lt_of_lt hcount))
  exact takes_bind h (hrest count (by omega))

theorem Repeats.takes {a b : α} {tokens rest : List Token}
    (h : Repeats around round a tokens b rest) : Takes around (iterate round a) tokens b rest := by
  intro c hc
  have hlength : tokens.length < c.lexemes.length + 1 := by
    rw [← hc]
    unfold Cursor.tokens
    rw [List.length_map]
    omega
  exact h _ hlength c hc

end Parser

end DialectDb
