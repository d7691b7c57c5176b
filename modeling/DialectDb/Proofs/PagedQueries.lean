/-
The ways to write a row limit with an offset. Each of them, behind a
query that has none, makes the same of it. The parts are read as they are
on their own: what stands behind the query goes on with no part of it,
nor does what stands behind a count go on with the count. One of the
spellings can leave out the count, so that a count which begins with ROW
or ROWS would be taken for one that is left out.
-/
import DialectDb.Proofs.Clauses
import DialectDb.Proofs.RespelledStatements

namespace DialectDb

open DialectDb.Parser

-- ============================================================= reaching

namespace Parser

variable {α β : Type} {around : Surroundings}

/-- However many placeholders have been counted, from some tokens the
reader gets to others with a result. -/
def Reaches (around : Surroundings) (x : Parser α) (tokens : List Token) (a : α)
    (rest : List Token) : Prop :=
  ∀ c : Cursor, c.tokens = tokens → ∃ d : Cursor, x.perform around c = .ok (a, d) ∧ d.tokens = rest

theorem Takes.reaches {x : Parser α} {tokens rest : List Token} {a : α}
    (h : Takes around x tokens a rest) : Reaches around x tokens a rest := by
  intro c hc
  obtain ⟨d, hd, hrest, -⟩ := h c hc
  exact ⟨d, hd, hrest⟩

theorem Reaches.bind {x : Parser α} {f : α → Parser β} {tokens mid rest : List Token} {a : α}
    {b : β} (hx : Reaches around x tokens a mid) (hf : Reaches around (f a) mid b rest) :
    Reaches around (x >>= f) tokens b rest := by
  intro c hc
  obtain ⟨c₁, hfirst, hmid⟩ := hx c hc
  obtain ⟨d, hd, hrest⟩ := hf c₁ hmid
  exact ⟨d, perform_bind_eq_ok.mpr ⟨a, c₁, hfirst, hd⟩, hrest⟩

theorem Reaches.map {x : Parser α} {f : α → β} {tokens rest : List Token} {a : α}
    (hx : Reaches around x tokens a rest) : Reaches around (f <$> x) tokens (f a) rest := by
  rw [← bind_pure_comp]
  exact hx.bind takes_pure.reaches

theorem Reaches.clause {x : Parser α} {word : Keyword} {tokens rest : List Token} {a : α}
    (hx : Reaches around x tokens a rest) :
    Reaches around (clause? word x) (.keyword word :: tokens) (some a) rest :=
  Reaches.bind takes_accept.reaches hx.map

end Parser

namespace Grammar

open Respelling

variable {v : DialectVersion} {n m rest : List Token} {e f : Expr} {size : Nat} {g : Grammar}

/-- What can be read on its own is read in front of what no expression
goes on with. -/
theorem reaches_expression (hhints : v.dialect.hints ≠ .table)
    (hn : Statement.ReadAs wholeExpression v n e) (hplain : .sign .question ∉ n)
    (hends : ∀ t, rest.head? = some t → t ∈ enders) {depth : Nat}
    (hdepth : (n ++ rest).length < depth) :
    Reaches { version := v, failure := none, size } ((ofDepth depth).expression 0) (n ++ rest) e
      rest := by
  obtain ⟨c, d, hc, hordinals, hperform⟩ := hn.perform
  obtain ⟨hexpression, hend⟩ := perform_wholeExpression hperform
  intro c' hc'
  let k := goesOn v hhints size c'.ordinals rest hends
  have hsynced : k.Synced c c' :=
    synced_append (hc ▸ hc') (by rw [hordinals, Nat.zero_add]; rfl) (.inr (hc ▸ hplain))
  have hfollows : k.FollowsGrammar depth (ofDepth (n.length + 1)) (ofDepth depth) :=
    followsGrammar_ofDepth _ _
  obtain ⟨d', hd', htokens, -⟩ :=
    (hfollows.expression 0).keeps_end (hc' ▸ hdepth) hsynced hexpression hend
  exact ⟨d', hd', htokens⟩

/-- The ways to write a row limit of `n` rows behind the first `m`. -/
def pagingForms (n m : List Token) : List (List Token) :=
  [.keyword .LIMIT :: (n ++ .keyword .OFFSET :: m),
    .keyword .LIMIT :: (m ++ .sign .comma :: n),
    .keyword .OFFSET :: (m ++ .keyword .LIMIT :: n),
    .keyword .OFFSET :: (m ++ .keyword .ROWS :: .keyword .FETCH :: .keyword .NEXT ::
      (n ++ [.keyword .ROWS, .keyword .ONLY]))]

/-- In a text that is short enough, a count is read in front of what no
expression goes on with. -/
def ReadsCount (around : Surroundings) (g : Grammar) (bound : Nat) (n : List Token) (e : Expr) :
    Prop :=
  ∀ rest, (∀ t, rest.head? = some t → t ∈ enders) → (n ++ rest).length < bound →
    Reaches around (g.expression 0) (n ++ rest) e rest

theorem ReadsCount.alone {around : Surroundings} {bound : Nat} (h : ReadsCount around g bound n e)
    (hbound : n.length < bound) : Reaches around (g.expression 0) n e [] := by
  have hread := h [] nofun
  rw [List.append_nil] at hread
  exact hread hbound

variable {around : Surroundings} {bound : Nat}

theorem reaches_limitPaging (hlimit : around.version.dialect.limitOffset = true)
    (hn : ReadsCount around g bound n e) (hm : ReadsCount around g bound m f)
    (hbound : n.length + m.length + 1 < bound) :
    Reaches around (limitPaging g) (n ++ .keyword .OFFSET :: m) ⟨some f, some e⟩ [] ∧
      Reaches around (limitPaging g) (m ++ .sign .comma :: n) ⟨some f, some e⟩ [] := by
  have hrequire {tokens : List Token} : Reaches around (require (·.dialect.limitOffset) .limit)
      tokens () tokens := (takes_require hlimit _ _).reaches
  constructor
  · refine hrequire.bind ((hn _ (by simp [enders]) ?_).bind ?_)
    · rw [List.length_append, List.length_cons]
      omega
    refine (takes_accept_false (by simp)).reaches.bind ?_
    exact (hm.alone (by omega)).clause.bind takes_pure.reaches
  · refine hrequire.bind ((hm _ (by simp [enders]) ?_).bind (takes_accept.reaches.bind ?_))
    · rw [List.length_append, List.length_cons]
      omega
    exact (hn.alone (by omega)).bind takes_pure.reaches

/-- FETCH takes the count, unless it reads as if it were left out. -/
theorem reaches_fetchCount (hn : ReadsCount around g bound n e) (hne : n ≠ [])
    (hrow : n.head? ≠ some (.keyword .ROW)) (hrows : n.head? ≠ some (.keyword .ROWS))
    (hbound : n.length + 2 < bound) :
    Reaches around (fetchCount g) (.keyword .NEXT :: (n ++ [.keyword .ROWS, .keyword .ONLY])) e
      [] := by
  obtain ⟨t, rest, rfl⟩ := List.exists_cons_of_ne_nil hne
  have hcount := hn [.keyword .ROWS, .keyword .ONLY] (by simp [enders])
    (by rw [List.length_append]; exact hbound)
  refine takes_next.reaches.bind (takes_peek.reaches.bind ?_)
  split
  · next heq => exact absurd heq hrow
  · next heq => exact absurd heq hrows
  · refine hcount.bind (takes_next.reaches.bind ?_)
    exact takes_expect.reaches.bind takes_pure.reaches

theorem reaches_offsetPaging (hlimit : around.version.dialect.limitOffset = true) (ordered : Bool)
    (hn : ReadsCount around g bound n e) (hm : ReadsCount around g bound m f)
    (hbound : n.length + m.length + 1 < bound) :
    Reaches around (offsetPaging g ordered) (m ++ .keyword .LIMIT :: n) ⟨some f, some e⟩ [] := by
  refine (hm _ (by simp [enders]) ?_).bind ?_
  · rw [List.length_append, List.length_cons]
    omega
  refine (takes_accept_false (by simp)).reaches.bind ?_
  refine (takes_accept_false (by simp)).reaches.bind ?_
  refine (takes_require hlimit _ _).reaches.bind ?_
  exact (hn.alone (by omega)).clause.bind takes_pure.reaches

theorem reaches_offsetPaging_rows (hpaging : around.version.supportsPaging = true)
    (horder : around.version.dialect.pagingRequiresOrderBy = false) (ordered : Bool)
    (hn : ReadsCount around g bound n e) (hm : ReadsCount around g bound m f) (hne : n ≠ [])
    (hrow : n.head? ≠ some (.keyword .ROW)) (hrows : n.head? ≠ some (.keyword .ROWS))
    (hbound : n.length + m.length + 5 < bound) :
    Reaches around (offsetPaging g ordered)
      (m ++ .keyword .ROWS :: .keyword .FETCH :: .keyword .NEXT ::
        (n ++ [.keyword .ROWS, .keyword .ONLY])) ⟨some f, some e⟩ [] := by
  refine (hm _ (by simp [enders]) ?_).bind ?_
  · simp only [List.length_append, List.length_cons, List.length_nil]
    omega
  refine (takes_accept_false (by simp)).reaches.bind (takes_accept.reaches.bind ?_)
  refine (takes_require hpaging _ _).reaches.bind ?_
  refine (reaches_fetchCount hn hne hrow hrows (by omega)).clause.bind ?_
  refine takes_read.reaches.bind ?_
  dsimp only
  rw [horder]
  exact takes_pure.reaches

/-- Every way to write a row limit is read as that row limit. -/
theorem reaches_paging (hlimit : around.version.dialect.limitOffset = true)
    (hpaging : around.version.supportsPaging = true)
    (horder : around.version.dialect.pagingRequiresOrderBy = false) (ordered : Bool)
    (hn : ReadsCount around g bound n e) (hm : ReadsCount around g bound m f) (hne : n ≠ [])
    (hrow : n.head? ≠ some (.keyword .ROW)) (hrows : n.head? ≠ some (.keyword .ROWS))
    {form : List Token} (hform : form ∈ pagingForms n m) (hbound : form.length ≤ bound) :
    Reaches around (paging? g ordered) form (some ⟨some f, some e⟩) [] := by
  simp only [pagingForms, List.mem_cons, List.not_mem_nil, or_false] at hform
  rcases hform with rfl | rfl | rfl | rfl <;>
    simp only [List.length_append, List.length_cons, List.length_nil] at hbound
  · refine Reaches.bind (Takes.reaches (takes_nextMap rfl)) ?_
    exact (reaches_limitPaging hlimit hn hm (by omega)).1.map
  · refine Reaches.bind (Takes.reaches (takes_nextMap rfl)) ?_
    exact (reaches_limitPaging hlimit hn hm (by omega)).2.map
  · refine Reaches.bind (Takes.reaches (takes_nextMap rfl)) ?_
    exact (reaches_offsetPaging hlimit ordered hn hm (by omega)).map
  · refine Reaches.bind (Takes.reaches (takes_nextMap rfl)) ?_
    exact (reaches_offsetPaging_rows hpaging horder ordered hn hm hne hrow hrows (by omega)).map

-- ============================================================= queries

/-- A reader that takes the next token if it knows it has either left
everything, or made something of that token. -/
theorem perform_nextMap {α : Type} {h : Token → Option α} {o : Option α} {c d : Cursor}
    (hperform : (nextMap? h).perform around c = .ok (o, d)) :
    o = none ∧ d = c ∨ ∃ t, h t = o ∧ o ≠ none := by
  obtain ⟨lexemes, position, ordinals⟩ := c
  cases lexemes with
  | nil =>
      cases hperform
      exact .inl ⟨rfl, rfl⟩
  | cons lexeme lexemes =>
      unfold nextMap? at hperform
      rw [perform_bind rfl] at hperform
      dsimp only at hperform
      split at hperform
      · cases hperform
        exact .inl ⟨rfl, rfl⟩
      · next a ha =>
          cases hperform
          exact .inr ⟨lexeme.token, ha, nofun⟩

/-- A row limit has an offset or a count. -/
theorem perform_paging {ordered : Bool} {o : Option Paging} {c d : Cursor}
    (h : (paging? g ordered).perform around c = .ok (o, d)) :
    o = none ∧ d = c ∨
      ∃ paging, o = some paging ∧ (paging.offset ≠ none ∨ paging.limit ≠ none) := by
  obtain ⟨word?, c₁, hnext, hrest⟩ := perform_bind_eq_ok.mp h
  rcases perform_nextMap hnext with ⟨rfl, rfl⟩ | ⟨t, ht, hsome⟩
  · cases hrest
    exact .inl ⟨rfl, rfl⟩
  have hyields {x : Parser Paging} (hperform : (some <$> x).perform around c₁ = .ok (o, d))
      (hx : Yields x fun paging => paging.offset ≠ none ∨ paging.limit ≠ none) :
      ∃ paging, o = some paging ∧ (paging.offset ≠ none ∨ paging.limit ≠ none) := by
    obtain ⟨paging, hpaging, rfl⟩ := Copy.perform_map_eq_ok.mp hperform
    exact ⟨paging, rfl, hx around c₁ paging d hpaging⟩
  right
  split at ht
  · subst ht
    refine hyields hrest (yields_bind fun _ => yields_bind fun first => yields_bind fun comma => ?_)
    split
    · exact yields_bind fun _ => yields_pure (.inl nofun)
    · exact yields_bind fun _ => yields_pure (.inr nofun)
  · subst ht
    refine hyields hrest (yields_bind fun offset => yields_bind fun row => ?_)
    refine yields_choose fun rows => ?_
    dsimp only
    split
    · exact yields_bind fun _ => yields_bind fun _ => yields_bind fun _ =>
        yields_when (yields_pure (.inl nofun))
    · exact yields_bind fun _ => yields_bind fun _ => yields_pure (.inl nofun)
  · subst ht
    exact hyields hrest (yields_bind fun _ => yields_bind fun _ => yields_pure (.inr nofun))
  · exact absurd ht.symm hsome

/-- A query that has no row limit ends before one would be read. -/
theorem perform_limited (hhints : around.version.dialect.hints ≠ .table) {query q : Select}
    {c d : Cursor} (h : (limited g query).perform around c = .ok (q, d)) (hoffset : q.offset = none)
    (hlimit : q.limit = none) : d = c ∧ q = { query with queryHints := [] } := by
  have hstyle : spellsHints .table around.version = false := decide_eq_false hhints
  have hbehind {query : Select} {c : Cursor} (hperform : (do
        pure { query with queryHints := ← queryHints } : Parser Select).perform around c =
          .ok (q, d)) :
      d = c ∧ q = { query with queryHints := [] } := by
    obtain ⟨hints, c₁, hqueryHints, hpure⟩ := perform_bind_eq_ok.mp hperform
    cases hpure
    obtain ⟨hints?, c₂, hclause, hpure⟩ := perform_bind_eq_ok.mp hqueryHints
    cases hpure
    obtain ⟨taken, c₃, haccept, hrest⟩ := perform_bind_eq_ok.mp hclause
    rcases perform_accept haccept with ⟨rfl, -⟩ | ⟨rfl, -, rfl⟩
    · obtain ⟨hints, hcontent, -⟩ := Copy.perform_map_eq_ok.mp hrest
      obtain ⟨_, _, hrequire, -⟩ := perform_bind_eq_ok.mp hcontent
      change Parser.perform (if spellsHints .table around.version then _ else _) around _ = _
        at hrequire
      rw [hstyle] at hrequire
      cases hrequire
    · cases hrest
      exact ⟨rfl, rfl⟩
  obtain ⟨paging?, c₁, hpaging, hrest⟩ := perform_bind_eq_ok.mp h
  rcases perform_paging hpaging with ⟨rfl, rfl⟩ | ⟨paging, rfl, hsome⟩
  · exact hbehind hrest
  · dsimp only at hrest
    split at hrest
    · obtain ⟨_, _, hthrow, -⟩ := perform_bind_eq_ok.mp hrest
      cases hthrow
    · obtain ⟨-, rfl⟩ := hbehind hrest
      exact absurd hsome (not_or.mpr ⟨not_not.mpr hoffset, not_not.mpr hlimit⟩)

variable {q : List Token} {query : Select}

/-- A query that is a whole text opens with SELECT or WITH, and without a
row limit it ends where one would stand. -/
theorem perform_unlimited_of_readAs (hhints : v.dialect.hints ≠ .table)
    (hq : Statement.ReadAs wholeStatement v q (.select query)) (hoffset : query.offset = none)
    (hlimit : query.limit = none) (hlast : q.getLast? ≠ some (.sign .semicolon)) :
    (q.head? = some (.keyword .SELECT) ∨ q.head? = some (.keyword .WITH)) ∧
      ∃ (u : Select) (c d : Cursor), c.tokens = q ∧ c.ordinals = 0 ∧
        (unlimited (ofDepth q.length)).perform { version := v, failure := none, size := 0 } c =
          .ok (u, d) ∧ d.tokens = [] ∧ query = { u with queryHints := [] } := by
  obtain ⟨c, d, rfl, hordinals, hstatement, hend⟩ := perform_statement_of_readAs hq hlast
  have hhead : c.tokens.head? = some (.keyword .SELECT) ∨
      c.tokens.head? = some (.keyword .WITH) := by
    obtain ⟨word, hword, hhead⟩ := opens_statement hstatement
    simp only [openers, List.mem_cons, List.not_mem_nil, or_false] at hword
    rcases hword with rfl | rfl
    · exact .inl hhead
    · exact .inr hhead
  rw [perform_statement_query rfl hhead] at hstatement
  obtain ⟨query', hselect, heq⟩ := Copy.perform_map_eq_ok.mp hstatement
  cases heq
  change (selectWith (ofDepth c.tokens.length)).perform _ c = _ at hselect
  rw [selectWith_eq] at hselect
  obtain ⟨u, c₁, hunlimited, hlimited⟩ := perform_bind_eq_ok.mp hselect
  obtain ⟨rfl, hquery⟩ := perform_limited hhints hlimited hoffset hlimit
  exact ⟨hhead, u, c, d, rfl, hordinals, hunlimited, hend, hquery⟩

/-- In front of a row limit a query is read as far as it goes without
one, and then the row limit. -/
theorem reaches_selectWith {tail : List Token} {paging : Paging}
    (hhints : v.dialect.hints ≠ .table)
    (hq : Statement.ReadAs wholeStatement v q (.select query)) (hoffset : query.offset = none)
    (hlimit : query.limit = none) (hlast : q.getLast? ≠ some (.sign .semicolon))
    (hends : ∀ t, tail.head? = some t → t ∈ queryEnders)
    (hpaging : ∀ ordered, Reaches { version := v, failure := none, size }
      (paging? (ofDepth (q ++ tail).length) ordered) tail (some paging) []) {c' : Cursor}
    (hc' : c'.tokens = q ++ tail) (hordinals' : c'.ordinals = 0) :
    ∃ d', (selectWith (ofDepth (q ++ tail).length)).perform
      { version := v, failure := none, size } c' =
        .ok ({ query with offset := paging.offset, limit := paging.limit }, d') ∧
      d'.tokens = [] := by
  obtain ⟨-, u, c, d, hc, hordinals, hunlimited, hend, rfl⟩ :=
    perform_unlimited_of_readAs hhints hq hoffset hlimit hlast
  have hends' : ∀ t, tail.head? = some t → t ∈ enders := by
    intro t ht
    have hmem := hends t ht
    simp only [queryEnders, List.mem_cons, List.not_mem_nil, or_false] at hmem
    rcases hmem with rfl | rfl | rfl <;> simp [enders]
  let k := goesOn v hhints size 0 tail hends'
  have hsynced : k.Synced c c' :=
    synced_append (hc ▸ hc') (hordinals'.trans hordinals.symm) (.inl rfl)
  have hfollows : k.Follows ((q ++ tail).length + 1) false (unlimited (ofDepth q.length))
      (unlimited (ofDepth (q ++ tail).length)) fun _ => ⟨false, 1⟩ :=
    follows_unlimited (.inr ⟨rfl, hends⟩) (followsGrammar_ofDepth _ _)
  obtain ⟨c₁, hunlimited', htokens, -⟩ :=
    hfollows.keeps_end (hc' ▸ Nat.lt_succ_self _) hsynced hunlimited hend
  obtain ⟨c₂, hlimits, hnil⟩ := hpaging (!u.orderBy.isEmpty) c₁ htokens
  have hbehind : Takes { version := v, failure := none, size } queryHints [] [] [] :=
    takes_bind (takes_clause_none (Option.some_ne_none _).symm) takes_pure
  obtain ⟨d', hqueryHints, hd', -⟩ := hbehind c₂ hnil
  refine ⟨d', ?_, hd'⟩
  rw [selectWith_eq]
  refine perform_bind_eq_ok.mpr ⟨u, c₁, hunlimited', ?_⟩
  refine perform_bind_eq_ok.mpr ⟨some paging, c₂, hlimits, ?_⟩
  have hfirst : u.limit = none := hlimit
  simp only [hfirst, Option.isSome_none, Bool.false_eq_true, if_false]
  refine perform_bind_eq_ok.mpr ⟨_, c₂, rfl, ?_⟩
  exact perform_bind_eq_ok.mpr ⟨[], d', hqueryHints, rfl⟩

/-- The number of rows is written. -/
theorem ne_nil_of_readAs (hhints : v.dialect.hints ≠ .table)
    (hn : Statement.ReadAs wholeExpression v n e) : n ≠ [] := by
  rintro rfl
  obtain ⟨c, d, hc, -, hperform⟩ := hn.perform
  have hsynced : (goesOn v hhints 0 0 [] nofun).Synced c c :=
    synced_append (List.append_nil _).symm rfl (.inl rfl)
  exact (followsGrammar_ofDepth 1 1).perform_ne_ok_of_nil (hc ▸ Nat.one_pos) hsynced hc
    (perform_wholeExpression hperform).1

theorem head_pagingForms {form : List Token} (h : form ∈ pagingForms n m) :
    ∀ t, form.head? = some t → t ∈ queryEnders := by
  simp only [pagingForms, List.mem_cons, List.not_mem_nil, or_false] at h
  rcases h with rfl | rfl | rfl | rfl <;> simp [queryEnders]

end Grammar

namespace Statement

/-- Behind a query that has none, every way to write a row limit makes
the same of the query. -/
theorem readAs_paged {v : DialectVersion} {q n m form : List Token} {query : Select} {e f : Expr}
    (hlimits : v.dialect.limitOffset = true) (hpaging : v.supportsPaging = true)
    (horder : v.dialect.pagingRequiresOrderBy = false) (hhints : v.dialect.hints ≠ .table)
    (hq : ReadAs Grammar.wholeStatement v q (.select query)) (hoffset : query.offset = none)
    (hlimit : query.limit = none) (hlast : q.getLast? ≠ some (.sign .semicolon))
    (hn : ReadAs Grammar.wholeExpression v n e) (hm : ReadAs Grammar.wholeExpression v m f)
    (hplain : .sign .question ∉ n) (hplain' : .sign .question ∉ m)
    (hrow : n.head? ≠ some (.keyword .ROW)) (hrows : n.head? ≠ some (.keyword .ROWS))
    (hform : form ∈ Grammar.pagingForms n m) :
    ReadAs Grammar.wholeStatement v (q ++ form)
      (.select { query with offset := some f, limit := some e }) := by
  refine readAs_of_perform fun size c' hc' hordinals' => ?_
  have hends := Grammar.head_pagingForms hform
  have hlimited (ordered : Bool) : Reaches { version := v, failure := none, size }
      (Grammar.paging? (Grammar.ofDepth (q ++ form).length) ordered) form
      (some ⟨some f, some e⟩) [] := by
    have hcount {n : List Token} {e : Expr} (hn : ReadAs Grammar.wholeExpression v n e)
        (hplain : .sign .question ∉ n) : Grammar.ReadsCount { version := v, failure := none, size }
          (Grammar.ofDepth (q ++ form).length) (q ++ form).length n e :=
      fun _ hends hlt => Grammar.reaches_expression hhints hn hplain hends hlt
    refine Grammar.reaches_paging hlimits hpaging horder ordered (hcount hn hplain)
      (hcount hm hplain') (Grammar.ne_nil_of_readAs hhints hn) hrow hrows hform ?_
    rw [List.length_append]
    exact Nat.le_add_left _ _
  obtain ⟨hhead, u, c, d, hc, -⟩ :=
    Grammar.perform_unlimited_of_readAs hhints hq hoffset hlimit hlast
  obtain ⟨d', hselect, hd'⟩ := Grammar.reaches_selectWith hhints hq hoffset hlimit hlast hends
    hlimited hc' hordinals'
  have hopens : c'.tokens.head? = some (.keyword .SELECT) ∨
      c'.tokens.head? = some (.keyword .WITH) := by
    rw [hc', List.head?_append]
    exact hhead.imp (fun h => by rw [h]; rfl) fun h => by rw [h]; rfl
  refine Grammar.perform_wholeStatement_of ?_ rfl (.inl hd')
  rw [Grammar.perform_statement_query rfl hopens]
  exact Copy.perform_map_eq_ok.mpr ⟨_, hselect, rfl⟩

end Statement

end DialectDb
