/-
Expressions of a text and of another spelling of it are the same. What
may stand behind the text goes on with no expression, and an operand that
is `VALUES(c)` in the text is `excluded.c` in the other spelling. So an
expression ends where it does in the text, at a dead end or not.
-/
import DialectDb.Proofs.Respelling

namespace DialectDb.Respelling

open DialectDb.Parser DialectDb.Grammar

variable {k : Respelling} {m : Nat} {g g' : Grammar}

/-- With fewer tokens than a bound left, a grammar reads from the other
spelling what another one reads from the text. A query may go on in the
other spelling. -/
structure FollowsGrammar (k : Respelling) (m : Nat) (g g' : Grammar) : Prop where
  expression : ∀ min, k.Follows m false (g.expression min) (g'.expression min) fun _ => ⟨false, 1⟩
  select : k.Follows m false g.select g'.select fun _ => ⟨true, 0⟩

/-- At the end of the text there is no expression. -/
theorem FollowsGrammar.perform_ne_ok_of_nil (h : k.FollowsGrammar m g g') {min : Nat}
    {c c' d : Cursor} {e : Expr} (hlt : c'.tokens.length < m) (hsynced : k.Synced c c')
    (hend : c.tokens = []) : (g.expression min).perform k.around c ≠ .ok (e, d) := by
  intro hperform
  rcases (h.expression min).keeps hlt hsynced hperform with ⟨d', -, hd⟩ | ⟨hdead, -⟩
  · have hlength := hd.length
    rw [hend] at hlength
    exact Nat.not_succ_le_zero _ hlength
  · cases hdead

-- ============================================================ operators

/-- A token that is an operator is none with which the spellings part. -/
theorem ofToken?_parting {t : Token} (ht : k.Parting t) :
    UnaryOp.ofToken? t = none ∧ BinaryOp.ofToken? t = none := by
  rcases ht.eq with rfl | rfl | rfl | rfl | rfl | rfl <;> exact ⟨rfl, rfl⟩

theorem follows_prefixOp (min : Nat) :
    k.Follows m false (prefixOp? min) (prefixOp? min) (Exit.found false) := by
  refine follows_nextMap rfl (.inr fun t ht => ?_)
  rw [(ofToken?_parting ht).1]
  rfl

/-- A token that may stand anywhere is next in both or in neither. -/
theorem Spells.head_iff {tokens tokens' : List Token} (h : k.Spells tokens tokens') {t : Token}
    (ht : t ≠ .keyword .VALUES) (hparting : ¬k.Parting t) :
    tokens.head? = some t ↔ tokens'.head? = some t := by
  constructor
  · intro hhead
    obtain ⟨rest, rfl⟩ := List.head?_eq_some_iff.mp hhead
    obtain ⟨rest', rfl, -⟩ := h.cons ht
    rfl
  · intro hhead
    obtain ⟨rest', rfl⟩ := List.head?_eq_some_iff.mp hhead
    obtain ⟨rest, rfl, -⟩ := h.of_cons hparting
    rfl

/-- Where it is next, the tokens behind it correspond. -/
theorem Spells.behind {tokens tokens' : List Token} (h : k.Spells tokens tokens') {t : Token}
    (hhead : tokens.head? = some t) (ht : t ≠ .keyword .VALUES) :
    ∃ rest rest', tokens = t :: rest ∧ tokens' = t :: rest' ∧ k.Spells rest rest' := by
  obtain ⟨rest, rfl⟩ := List.head?_eq_some_iff.mp hhead
  obtain ⟨rest', rfl, hrest⟩ := h.cons ht
  exact ⟨rest, rest', rfl, rfl, hrest⟩

/-- Two such tokens, one behind the other, are next in both or in
neither. -/
theorem Spells.second_iff {tokens tokens' : List Token} (h : k.Spells tokens tokens') {t u : Token}
    (ht : t ≠ .keyword .VALUES) (hu : u ≠ .keyword .VALUES) (hpartingt : ¬k.Parting t)
    (hpartingu : ¬k.Parting u) :
    tokens.head? = some t ∧ tokens[1]? = some u ↔
      tokens'.head? = some t ∧ tokens'[1]? = some u := by
  rw [← h.head_iff ht hpartingt]
  refine and_congr_right fun hhead => ?_
  obtain ⟨rest, rest', rfl, rfl, hrest⟩ := h.behind hhead ht
  rw [List.getElem?_cons_succ, List.getElem?_cons_succ, ← List.head?_eq_getElem?,
    ← List.head?_eq_getElem?]
  exact hrest.head_iff hu hpartingu

/-- What is read where LIKE stands behind NOT. -/
private theorem takes_notLike {around : Surroundings} {min : Nat}
    (hmin : min ≤ BinaryOp.like.precedence) (rest : List Token) :
    Takes around (infixOp? min) ([.keyword .NOT, .keyword .LIKE] ++ rest)
      (some ⟨BinaryOp.like.precedence, fun l r => .unary .not (.binary .like l r)⟩) rest := by
  refine takes_bind takes_peek ?_
  rw [if_pos rfl]
  refine takes_bind takes_peekSecond ?_
  rw [if_pos (by simp [hmin])]
  exact takes_bind takes_next (takes_bind takes_next takes_pure)

/-- What is read where none does that binds tightly enough. -/
private theorem takes_notOther {around : Surroundings} {min : Nat} {rest : List Token}
    (h : ¬(rest.head? = some (.keyword .LIKE) ∧ min ≤ BinaryOp.like.precedence)) :
    Takes around (infixOp? min) (.keyword .NOT :: rest) none (.keyword .NOT :: rest) := by
  refine takes_bind takes_peek ?_
  rw [if_pos rfl]
  refine takes_bind takes_peekSecond ?_
  rw [if_neg (by simpa [List.head?_eq_getElem?] using h)]
  exact takes_pure

/-- What is read where NOT is not next. -/
private theorem perform_infixOp {around : Surroundings} (hend : around.failure = none) {min : Nat}
    {c : Cursor} (h : c.tokens.head? ≠ some (.keyword .NOT)) :
    (infixOp? min).perform around c =
      (do
        let op ← nextMap? fun token => (BinaryOp.ofToken? token).filter (min ≤ ·.precedence)
        pure (op.map fun op => ⟨op.precedence, .binary op⟩) : Parser (Option Infix)).perform
          around c := by
  have hpeek : peek.perform around c = .ok (c.tokens.head?, c) :=
    perform_peek_eq_ok.mpr ⟨rfl, rfl, fun _ => hend⟩
  unfold infixOp?
  rw [perform_bind hpeek, if_neg h]

theorem follows_infixOp (min : Nat) :
    k.Follows m false (infixOp? min) (infixOp? min) (Exit.found false) where
  keeps {c c' o d} hlt hsynced hperform := by
    have hnot := hsynced.spells.head_iff (t := .keyword .NOT) nofun (not_parting (by decide))
    by_cases hhead : c.tokens.head? = some (.keyword .NOT)
    · obtain ⟨rest, rest', hc, hc', hrest⟩ := hsynced.spells.behind hhead nofun
      have hlike := hrest.head_iff (t := .keyword .LIKE) nofun (not_parting (by decide))
      by_cases htakes : rest.head? = some (.keyword .LIKE) ∧ min ≤ BinaryOp.like.precedence
      · obtain ⟨behind, rfl⟩ := List.head?_eq_some_iff.mp htakes.1
        obtain ⟨behind', rfl, hbehind⟩ := hrest.cons nofun
        obtain ⟨rfl, d', hd', hd⟩ := hsynced.keeps_front hc hc' hbehind
          (takes_notLike htakes.2 behind) (takes_notLike htakes.2 behind') hperform
        exact .inl ⟨d', hd', hd.weaken (Nat.le_succ 1)⟩
      · have hsame := hsynced.spells
        rw [hc, hc'] at hsame
        obtain ⟨rfl, hd⟩ := hsynced.keeps_front (show c.tokens = [] ++ _ from hc) hc' hsame
          (takes_notOther htakes) (takes_notOther (by rwa [← hlike])) hperform
        exact .inl hd
    · have hplain : k.Follows m false
          (do
            let op ← nextMap? fun token => (BinaryOp.ofToken? token).filter (min ≤ ·.precedence)
            pure (op.map fun op => ⟨op.precedence, .binary op⟩) : Parser (Option Infix))
          (do
            let op ← nextMap? fun token => (BinaryOp.ofToken? token).filter (min ≤ ·.precedence)
            pure (op.map fun op => ⟨op.precedence, .binary op⟩)) (Exit.found false) := by
        refine (follows_nextMap rfl (.inr fun t ht => ?_)).then fun op => ?_
        · rw [(ofToken?_parting ht).2]
          rfl
        · cases op with
          | none => exact follows_pure nofun rfl
          | some op => exact follows_pure nofun rfl
      rw [perform_infixOp k.complete hhead] at hperform
      have hhead' : c'.tokens.head? ≠ some (.keyword .NOT) := fun h => hhead (hnot.mpr h)
      exact (hplain.keeps hlt hsynced hperform).of_perform_eq (perform_infixOp k.complete' hhead')
  strays := nofun

/-- NOT and a keyword, or the keyword alone, is taken in both. -/
theorem follows_negatable {word : Keyword} (hnot : word ≠ .NOT) (hvalues : word ≠ .VALUES)
    (hparting : ¬k.Parting (.keyword word)) :
    k.Follows m false (negatable? word) (negatable? word) (Exit.found false) where
  keeps {c c' o d} _ hsynced hperform := by
    have hword : Token.keyword word ≠ .keyword .VALUES := fun h => hvalues (Token.keyword.inj h)
    have hspells := hsynced.spells
    by_cases hplain : c.tokens.head? = some (.keyword word)
    · obtain ⟨rest, rest', hc, hc', hrest⟩ := hspells.behind hplain hword
      obtain ⟨rfl, hd⟩ := hsynced.keeps_token hc hc' hrest (takes_negatable hnot false rest)
        (takes_negatable hnot false rest') hperform
      exact .inl hd
    by_cases hnegated : c.tokens.head? = some (.keyword .NOT) ∧ c.tokens[1]? = some (.keyword word)
    · obtain ⟨rest, rest', hc, hc', hrest⟩ := hspells.behind hnegated.1 nofun
      have hsecond : rest.head? = some (.keyword word) := by
        rw [← hnegated.2, hc, List.getElem?_cons_succ, List.head?_eq_getElem?]
      obtain ⟨behind, behind', rfl, rfl, hbehind⟩ := hrest.behind hsecond hword
      obtain ⟨rfl, d', hd', hd⟩ := hsynced.keeps_front
        (show c.tokens = [.keyword .NOT, .keyword word] ++ behind from hc) hc' hbehind
        (takes_negatable hnot true behind) (takes_negatable hnot true behind') hperform
      exact .inl ⟨d', hd', hd.weaken (Nat.le_succ 1)⟩
    · have hplain' := hplain
      have hnegated' := hnegated
      rw [hspells.head_iff hword hparting] at hplain'
      rw [hspells.second_iff (t := .keyword .NOT) nofun hword (not_parting (by decide)) hparting]
        at hnegated'
      obtain ⟨rfl, hd⟩ := hsynced.keeps_front (List.nil_append c.tokens).symm
        (List.nil_append c'.tokens).symm hspells
        (takes_negatable_none k.complete hnegated hplain)
        (takes_negatable_none k.complete' hnegated' hplain') hperform
      exact .inl hd
  strays := nofun

/-- Whether a query follows is the same for both. -/
theorem follows_atQuery : k.Follows m false atQuery atQuery fun _ => ⟨false, 0⟩ :=
  follows_peek_else (y := pure false) rfl rfl (by simp [enders]) fun o => follows_pure nofun rfl

variable (hg : k.FollowsGrammar m g g')
include hg

theorem follows_membership (negated : Bool) :
    k.Follows m false (membership g negated) (membership g' negated) fun _ => ⟨false, 1⟩ := by
  refine follows_parenthesized (e := ⟨true, 0⟩) (follows_atQuery.then fun query => ?_)
  refine .ite (fun _ => ?_) fun _ => ?_
  · exact hg.select.then fun _ => follows_pure id rfl
  · have hitem := (hg.expression 0).loosen (e := true) (Nat.le_refl 1)
    exact (follows_commaList (.inl rfl) hitem).then fun _ => follows_pure id rfl

theorem follows_range (negated : Bool) :
    k.Follows m false (range g negated) (range g' negated) fun _ => ⟨false, 1⟩ := by
  refine (hg.expression _).then fun low => ?_
  refine (follows_expect (by decide)).then fun _ => ?_
  exact (hg.expression _).then fun high => follows_pure nofun rfl

theorem follows_postfixOp (min : Nat) :
    k.Follows m false (postfixOp? g min) (postfixOp? g' min) (Exit.found false) := by
  refine .ite (fun _ => follows_pure nofun rfl) fun _ => ?_
  refine (follows_negatable (by decide) (by decide) (not_parting (by decide))).then fun isIn => ?_
  cases isIn with
  | some negated =>
      exact .map ((follows_membership hg negated).loosen (Nat.zero_le 1))
  | none =>
      refine (follows_negatable (by decide) (by decide) (not_parting (by decide))).then
        fun isBetween => ?_
      cases isBetween with
      | some negated =>
          exact .map ((follows_range hg negated).loosen (Nat.zero_le 1))
      | none =>
          refine follows_ifAccept (by decide) (.inr (not_parting (by decide))) ?_
            (follows_pure nofun rfl)
          refine (follows_accept_inside (by decide)
            (not_parting (by decide))).then fun negated => ?_
          exact (follows_expect (by decide)).then fun _ => follows_pure nofun rfl

-- ============================================================= operands

theorem follows_nextArgument (args : List Expr) :
    k.Follows m false (nextArgument? g args) (nextArgument? g' args) (Exit.round false) := by
  have hitem : k.Follows m false (do pure (some (args ++ [← g.expression 0])))
      (do pure (some (args ++ [← g'.expression 0]))) (Exit.round false) :=
    (hg.expression 0).then fun e => follows_pure nofun rfl
  refine follows_ifAccept (by decide) (.inr (not_parting (by decide)))
    (follows_pure nofun rfl) ?_
  exact .when ((follows_expect (by decide)).loosen (Nat.zero_le 1)) hitem

theorem follows_arguments :
    k.Follows m false (arguments g) (arguments g') fun _ => ⟨false, 0⟩ :=
  follows_iterate (follows_nextArgument hg) []

theorem follows_named (name : String) :
    k.Follows m false (named g name) (named g' name) fun _ => ⟨false, 0⟩ := by
  refine follows_ifAccept (by decide) (.inr (not_parting (by decide))) ?_ ?_
  · refine ((follows_arguments hg).mono (Nat.sub_le m 1)).then fun args => ?_
    exact .ite (fun _ => .of_fails (Copy.fails_fault _)) fun _ => follows_pure nofun rfl
  · refine follows_ifAccept (by decide) (.inr (not_parting (by decide))) ?_
      (follows_pure nofun rfl)
    refine follows_identifier.then fun column => .read ?_
    exact .ite (fun _ => follows_pure nofun rfl) fun _ => follows_pure nofun rfl

theorem follows_keywordOperand (word : Keyword) :
    k.Follows m false (keywordOperand g word) (keywordOperand g' word) fun _ => ⟨false, 0⟩ := by
  unfold keywordOperand
  split
  · exact follows_pure nofun rfl
  · exact follows_pure nofun rfl
  · exact follows_pure nofun rfl
  · exact .map ((follows_parenthesized hg.select).loosen (Nat.zero_le 1))
  · refine .read (.ite (fun _ => ?_) fun _ => .ite (fun _ => ?_) fun _ => ?_)
    · exact .map ((follows_parenthesized follows_identifier).loosen (Nat.zero_le 1))
    · exact follows_pure nofun rfl
    · exact .of_fails (Copy.fails_fault _)

omit hg in
theorem follows_numberLiteral (text : String) :
    k.Follows m false (numberLiteral text) (numberLiteral text) fun _ => ⟨false, 0⟩ := by
  unfold numberLiteral
  split
  · exact .ite (fun _ => follows_pure nofun rfl) fun _ => .of_fails (Copy.fails_fault _)
  · cases Double.ofText? text with
    | some d => exact follows_pure nofun rfl
    | none => exact .of_fails (Copy.fails_fault _)

omit hg in
/-- A name is read from one token. -/
theorem perform_identifier {around : Surroundings} {c d : Cursor} {name : String}
    (h : identifier.perform around c = .ok (name, d)) :
    ∃ t, c.tokens = t :: d.tokens ∧ nameOf? t = some name := by
  obtain ⟨t, c₁, hnext, hname⟩ := perform_bind_eq_ok.mp h
  obtain ⟨htokens, -⟩ := Copy.perform_next_eq_ok hnext
  cases ht : nameOf? t with
  | none =>
      rw [ht] at hname
      cases hname
  | some found =>
      rw [ht] at hname
      cases hname
      exact ⟨t, htokens, ht⟩

omit hg in
/-- The column in `VALUES(c)`, where it is a name. -/
theorem takes_values {around : Surroundings} (hupsert : around.upsert = true) {column : Token}
    {name : String} (hname : nameOf? column = some name) (rest : List Token) :
    Takes around (operand g)
      (.keyword .VALUES :: .sign .openParen :: column :: .sign .closeParen :: rest)
      (.excluded name) rest := by
  refine takes_bind takes_next (takes_bind takes_read ?_)
  rw [if_pos (by simp [hupsert])]
  exact takes_map (takes_parenthesized (takes_identifier hname))

omit hg in
/-- The column in `excluded.c`. -/
theorem takes_excluded {around : Surroundings} (hupsert : around.upsert = true) {column : Token}
    {name : String} (hname : nameOf? column = some name) (rest : List Token) :
    Takes around (operand g) (.ident "excluded" :: .sign .period :: column :: rest)
      (.excluded name) rest := by
  refine takes_bind takes_next (takes_bind (takes_accept_false nofun) (takes_bind takes_accept ?_))
  refine takes_bind (takes_identifier hname) (takes_bind takes_read ?_)
  rw [if_pos (by simp [hupsert])]
  exact takes_pure

omit hg in
/-- In `VALUES(c)` stands a name. -/
theorem nameOf?_values {around : Surroundings} (hupsert : around.upsert = true) {c d : Cursor}
    {column : Token} {rest : List Token} {e : Expr}
    (hc : c.tokens = .keyword .VALUES :: .sign .openParen :: column :: rest)
    (h : (operand g).perform around c = .ok (e, d)) : ∃ name, nameOf? column = some name := by
  obtain ⟨t, c₁, hnext, hoperand⟩ := perform_bind_eq_ok.mp h
  obtain ⟨htokens, -⟩ := Copy.perform_next_eq_ok hnext
  obtain ⟨rfl, hopen⟩ := List.cons_eq_cons.mp (hc.symm.trans htokens)
  change (keywordOperand g .VALUES).perform around c₁ = _ at hoperand
  obtain ⟨_, _, hread, hexcluded⟩ := perform_bind_eq_ok.mp hoperand
  cases hread
  rw [if_pos (by simp [hupsert])] at hexcluded
  obtain ⟨name, hparenthesized, -⟩ := Copy.perform_map_eq_ok.mp hexcluded
  obtain ⟨_, c₂, hexpect, hinner⟩ := perform_bind_eq_ok.mp hparenthesized
  obtain ⟨found, c₃, hidentifier, -⟩ := perform_bind_eq_ok.mp hinner
  obtain ⟨u, hu, hname⟩ := perform_identifier hidentifier
  have hbehind := perform_expect hexpect
  rw [← hopen, hu] at hbehind
  obtain ⟨-, rfl, -⟩ :
      Token.sign .openParen = .sign .openParen ∧ column = u ∧ rest = c₃.tokens := by
    simpa using hbehind
  exact ⟨found, hname⟩

omit hg in
/-- A placeholder is counted. -/
theorem perform_question (around : Surroundings) (g : Grammar) {c : Cursor} {rest : List Token}
    (hc : c.tokens = .sign .question :: rest) :
    ∃ d, (operand g).perform around c = .ok (.parameter (.positional c.ordinals), d) ∧
      d.tokens = rest ∧ d.ordinals = c.ordinals + 1 := by
  have hnext : Takes around next (.sign .question :: rest) (.sign .question) rest := takes_next
  obtain ⟨c₁, hc₁, hrest, hordinals⟩ := hnext c hc
  refine ⟨{ c₁ with ordinals := c₁.ordinals + 1 }, ?_, hrest, by rw [hordinals]⟩
  unfold operand
  rw [perform_bind hc₁, ← hordinals]
  rfl

omit hg in
/-- Nothing is ahead where a placeholder is left. -/
theorem keeps_question {c c' d : Cursor} {e : Expr} {rest rest' : List Token}
    (hsynced : k.Synced c c') (hc : c.tokens = .sign .question :: rest)
    (hc' : c'.tokens = .sign .question :: rest') (hrest : k.Spells rest rest')
    (hperform : (operand g).perform k.around c = .ok (e, d)) :
    ∃ d', (operand g').perform k.surroundings c' = .ok (e, d') ∧ k.Advances 1 c c' d d' := by
  have hnone : k.ahead = 0 := hsynced.counted.resolve_right fun hno =>
    hno (hc ▸ List.mem_cons_self)
  have hordinals : c'.ordinals = c.ordinals := by rw [hsynced.ordinals, hnone, Nat.add_zero]
  obtain ⟨d₁, hd₁, rfl, hcounted⟩ := perform_question k.around g hc
  obtain ⟨d', hd', rfl, hcounted'⟩ := perform_question k.surroundings g' hc'
  rw [hd₁] at hperform
  cases hperform
  rw [hordinals] at hd' hcounted'
  have hnext : k.Synced d d' := ⟨hrest, by rw [hcounted, hcounted', hnone], .inl hnone⟩
  exact ⟨d', hd', hnext, Nat.le_of_eq (by rw [hc, List.length_cons]),
    Nat.le_of_eq (by rw [hc', List.length_cons])⟩

/-- An operand is the same, also where the spellings part with one. -/
theorem follows_operand :
    k.Follows (m + 1) false (operand g) (operand g') fun _ => ⟨false, 1⟩ where
  keeps {c c' e d} hlt hsynced hperform := by
    have hspells := hsynced.spells
    generalize hc : c.tokens = tokens at hspells
    generalize hc' : c'.tokens = tokens' at hspells
    cases hspells with
    | stop =>
        obtain ⟨t, c₁, hnext, -⟩ := perform_bind_eq_ok.mp hperform
        obtain ⟨htokens, -⟩ := Copy.perform_next_eq_ok hnext
        rw [hc] at htokens
        cases htokens
    | @proposed hproposes column rest rest' hrest =>
        have hupsert := k.upserts hproposes
        obtain ⟨name, hname⟩ := nameOf?_values hupsert hc hperform
        have hx : Takes k.around (operand g) _ _ _ := takes_values hupsert hname rest
        have hx' : Takes k.surroundings (operand g') _ _ _ :=
          takes_excluded (show k.surroundings.upsert = true from hupsert) hname rest'
        rw [← hc] at hx
        rw [← hc'] at hx'
        have hlength := congrArg List.length hc
        have hlength' := congrArg List.length hc'
        simp only [List.length_cons] at hlength hlength'
        obtain ⟨rfl, -, hd⟩ := hsynced.keeps_takes hx hx' hrest (n := 1)
          (hc ▸ ⟨[.keyword .VALUES, .sign .openParen, column, .sign .closeParen], rfl⟩)
          (by omega) (by omega) hperform
        exact .inl hd
    | same t hrest =>
        by_cases hquestion : t = .sign .question
        · subst hquestion
          exact .inl (keeps_question hsynced hc hc' hrest hperform)
        refine hsynced.keeps_next (T := fun _ => ⟨false, 1⟩) hc hc' hrest ?_ hlt hperform
        cases t with
        | number text => exact follows_numberLiteral text
        | string text => exact follows_pure nofun rfl
        | parameter name => exact follows_pure nofun rfl
        | ident name => exact follows_named hg name
        | keyword word => exact follows_keywordOperand hg word
        | sign mark =>
            cases mark with
            | question => exact absurd rfl hquestion
            | asterisk => exact follows_pure nofun rfl
            | openParen =>
                refine (hg.expression 0).then fun e => ?_
                exact (follows_expect (by decide)).then fun _ =>
                  follows_pure nofun rfl
            | _ => exact .of_fails (Copy.fails_fault _)
  strays := nofun

-- ========================================================== expressions

theorem follows_extend (min : Nat) (e : Expr) :
    k.Follows m false (extend? g min e) (extend? g' min e) (Exit.round false) := by
  refine (follows_postfixOp hg min).then fun test => ?_
  cases test with
  | some test => exact follows_pure nofun rfl
  | none =>
      refine (follows_infixOp min).then fun op => ?_
      cases op with
      | none => exact follows_pure nofun rfl
      | some op => exact (hg.expression _).then fun right => follows_pure nofun rfl

theorem follows_expressionWith (min : Nat) :
    k.Follows (m + 1) false (expressionWith g min) (expressionWith g' min) fun _ => ⟨false, 1⟩ := by
  have hloop (e : Expr) : k.Follows m false (iterate (extend? g min) e)
      (iterate (extend? g' min) e) fun _ => ⟨false, 0⟩ :=
    follows_iterate (follows_extend hg min) e
  refine (follows_prefixOp min).bind fun op => ?_
  cases op with
  | some op =>
      have hright : k.Follows m false (Expr.unary op <$> g.expression op.precedence)
          (Expr.unary op <$> g'.expression op.precedence) fun _ => ⟨false, 1⟩ :=
        .map (hg.expression op.precedence)
      exact hright.then hloop
  | none => exact (follows_operand hg).bind hloop

end DialectDb.Respelling
