/-
How the clauses of a query are read from the tokens that they are
written as. Every clause can be left out, and whether it is there is told
by its first token. `Token.place?` numbers these first tokens in the
order of the clauses. Behind a clause only a later one can stand, or what
ends the query (`Behind`), so that no reader takes a clause for another
one, or for an operator, an alias or a hint.

Here the expressions and queries inside of the clauses are taken for
granted (`TakesExpr`, `TakesQuery`).
-/
import DialectDb.Grammar.Query
import DialectDb.Proofs.CommaLists
import DialectDb.Proofs.Operators
import DialectDb.Proofs.WrittenQueries

namespace DialectDb

-- ================================================== what stands behind

/-- The place of the clause that a token opens. What ends a query has
the last place. -/
def Token.place? : Token → Option Nat
  | .keyword .FROM => some 0
  | .keyword .CROSS | .keyword .INNER | .keyword .LEFT | .keyword .RIGHT => some 1
  | .keyword .WHERE => some 2
  | .keyword .GROUP => some 3
  | .keyword .HAVING => some 4
  | .keyword .UNION => some 5
  | .keyword .ORDER => some 6
  | .keyword .LIMIT => some 7
  | .keyword .OFFSET => some 8
  | .sign .closeParen => some 9
  | _ => none

/-- Whether a token ends an item of a list or a table. -/
def Token.endsItem : Token → Bool
  | .sign .comma | .keyword .ON => true
  | token => token.place?.isSome

/-- An item ends before these tokens. -/
def EndsItem (tokens : List Token) : Prop :=
  ∀ token, tokens.head? = some token → token.endsItem = true

/-- No clause before a given place follows, nor anything that is no
clause. -/
def Behind (place : Nat) (tokens : List Token) : Prop :=
  ∀ token, tokens.head? = some token → ∃ p, token.place? = some p ∧ place ≤ p

namespace Behind

variable {place : Nat} {tokens : List Token}

theorem mono {place' : Nat} (h : Behind place tokens) (hplace : place' ≤ place) :
    Behind place' tokens := by
  intro token htoken
  obtain ⟨p, hp, hle⟩ := h token htoken
  exact ⟨p, hp, Nat.le_trans hplace hle⟩

theorem nil (place : Nat) : Behind place [] :=
  nofun

theorem closeParen (rest : List Token) : Behind 9 (.sign .closeParen :: rest) := by
  rintro token ⟨⟩
  exact ⟨9, rfl, Nat.le_refl 9⟩

theorem endsItem (h : Behind place tokens) : EndsItem tokens := by
  intro token htoken
  obtain ⟨p, hp, -⟩ := h token htoken
  unfold Token.endsItem
  split
  · rfl
  · rfl
  · rw [hp]
    rfl

/-- A token that opens an earlier clause, or none, does not follow. -/
theorem ne (h : Behind place tokens) {token : Token}
    (htoken : token.place?.all (· < place) = true) : tokens.head? ≠ some token := by
  intro hhead
  obtain ⟨p, hp, hle⟩ := h token hhead
  rw [hp] at htoken
  exact absurd (of_decide_eq_true htoken) (Nat.not_lt.mpr hle)

/-- A clause follows that is at its place. -/
theorem cons {token : Token} {p : Nat} (hp : token.place? = some p) (hplace : place ≤ p)
    (rest : List Token) : Behind place (token :: rest) := by
  rintro _ ⟨⟩
  exact ⟨p, hp, hplace⟩

/-- So does one that may be left out. -/
theorem clause {word : Keyword} {p : Nat} (hp : (Token.keyword word).place? = some p)
    (hplace : place ≤ p) {rest : List Token} (hrest : Behind place rest)
    (content : Option (List Token)) : Behind place (clauseTokens word content ++ rest) := by
  cases content with
  | none => exact hrest
  | some content => exact cons hp hplace _

theorem list {first second : Keyword} {p : Nat} (hp : (Token.keyword first).place? = some p)
    (hplace : place ≤ p) {rest : List Token} (hrest : Behind place rest)
    (lists : List (List Token)) : Behind place (listTokens first second lists ++ rest) := by
  cases lists with
  | nil => exact hrest
  | cons content lists => exact cons hp hplace _

end Behind

theorem endsItem_comma (rest : List Token) : EndsItem (.sign .comma :: rest) := by
  rintro _ ⟨⟩
  rfl

/-- A token that ends no item does not follow one. -/
theorem EndsItem.ne {tokens : List Token} (h : EndsItem tokens) {token : Token}
    (htoken : token.endsItem = false) : tokens.head? ≠ some token := by
  intro hhead
  rw [h token hhead] at htoken
  cases htoken

/-- What ends an item ends an expression. -/
theorem EndsItem.stops {tokens : List Token} (h : EndsItem tokens) (min : Nat) :
    Grammar.Stops min tokens := by
  cases tokens with
  | nil => exact Grammar.stops_nil min
  | cons token rest =>
      have htoken := h token rfl
      cases token with
      | sign mark =>
          cases mark <;> first | (cases htoken; done) | exact ⟨nofun, nofun, nofun⟩
      | keyword word =>
          cases word <;> first | (cases htoken; done) | exact ⟨nofun, nofun, nofun⟩
      | _ => cases htoken

namespace Grammar

open DialectDb.Parser

/-- A keyword that is no operator does. -/
theorem stops_word {word : Keyword} (h : word = .AS ∨ word = .DESC) (min : Nat)
    (rest : List Token) : Stops min (.keyword word :: rest) := by
  rcases h with rfl | rfl <;> exact ⟨nofun, nofun, nofun⟩

variable {around : Surroundings} {g : Grammar} {α : Type}

-- ============================================================== readers

theorem takes_require {condition : DialectVersion → Bool} (h : condition around.version = true)
    (feature : Feature) (tokens : List Token) :
    Takes around (require condition feature) tokens () tokens := by
  refine takes_bind takes_read ?_
  dsimp only
  rw [if_pos h]
  exact takes_pure

theorem takes_clause {content : Parser α} {word : Keyword} {tokens rest : List Token} {a : α}
    (h : Takes around content tokens a rest) :
    Takes around (clause? word content) (.keyword word :: tokens) (some a) rest :=
  takes_bind takes_accept (takes_map h)

theorem takes_clause_none {content : Parser α} {word : Keyword} {tokens : List Token}
    (h : tokens.head? ≠ some (.keyword word)) :
    Takes around (clause? word content) tokens none tokens :=
  takes_bind (takes_accept_false h) takes_pure

theorem takes_skipOver_none {token : Token} {tokens : List Token} (h : tokens.head? ≠ some token) :
    Takes around (skipOver token) tokens () tokens :=
  takes_bind (takes_accept_false h) takes_pure

/-- A clause that may be left out is read, if what is in it is. -/
theorem takes_clauseTokens {content : Parser α} {word : Keyword} {written : α → List Token}
    {a? : Option α} {rest : List Token}
    (h : ∀ a ∈ a?, Takes around content (written a ++ rest) a rest)
    (hrest : rest.head? ≠ some (.keyword word)) :
    Takes around (clause? word content) (clauseTokens word (a?.map written) ++ rest) a? rest := by
  cases a? with
  | none => exact takes_clause_none hrest
  | some a => exact takes_clause (h a rfl)

/-- A list that may be left out is read, if its items are. -/
theorem takes_listTokens {item : Parser α} {first second : Keyword} {written : α → List Token}
    {items : List α} {rest : List Token} {follows : List Token → Prop}
    (hcomma : ∀ tokens, follows (.sign .comma :: tokens))
    (hitems : ∀ a ∈ items, TakesBefore around item follows (a, written a)) (hrest : follows rest)
    (hend : rest.head? ≠ some (.sign .comma)) (hfirst : rest.head? ≠ some (.keyword first)) :
    Takes around
      (do
        let items? ← clause? first do
          expect second
          commaList item
        pure (items?.getD []))
      (listTokens first second (items.map written) ++ rest) items rest := by
  cases items with
  | nil => exact takes_bind (takes_clause_none hfirst) takes_pure
  | cons a items =>
      have hlist := takes_commaList_map hcomma hitems nofun hrest hend
      exact takes_bind (takes_clause (takes_bind takes_expect hlist)) takes_pure

/-- A step that takes one item at a time takes all of them. -/
theorem takes_iterate_append {step : List α → Parser (Option (List α))} {written : α → List Token}
    {items : List α} {rest : List Token} (follows : List Token → Prop)
    (hstep : ∀ a ∈ items, ∀ read rest, follows rest →
      Takes around (step read) (written a ++ rest) (some (read ++ [a])) rest)
    (hopens : ∀ a ∈ items, ∀ rest, written a ≠ [] ∧ follows (written a ++ rest))
    (hrest : follows rest) (hend : ∀ read, Takes around (step read) rest none rest) :
    Takes around (iterate step []) ((items.map written).flatten ++ rest) items rest := by
  have hall (read : List α) : Repeats around step read ((items.map written).flatten ++ rest)
      (read ++ items) rest := by
    induction items generalizing read with
    | nil =>
        rw [List.append_nil]
        exact .stop (hend read)
    | cons a items ih =>
        obtain ⟨hfirst, hsteps⟩ := List.forall_mem_cons.mp hstep
        obtain ⟨hopen, hopens⟩ := List.forall_mem_cons.mp hopens
        have hbehind : follows ((items.map written).flatten ++ rest) := by
          cases items with
          | nil => exact hrest
          | cons b items =>
              rw [List.map_cons, List.flatten_cons, List.append_assoc]
              exact (hopens b List.mem_cons_self _).2
        have hlength := List.length_pos_iff.mpr (hopen rest).1
        rw [List.map_cons, List.flatten_cons, List.append_assoc, List.append_cons read]
        refine .step (hfirst read _ hbehind) ?_ (ih hsteps hopens _)
        simp only [List.length_append]
        omega
  exact (hall []).takes

end Grammar

end DialectDb
