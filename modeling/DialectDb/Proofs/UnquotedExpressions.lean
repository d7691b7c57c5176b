/-
Expressions are read alike with names in quotes and with bare keywords
for some of them. Wherever an operand is wanted, an expression that is
read gets behind an operand.

An operand is the one thing that looks at what is behind its name: a
quoted name is a call before a parenthesis and qualifies a column before
a period, and a bare keyword is a column all the same.
-/
import DialectDb.Proofs.MadeExpressions
import DialectDb.Proofs.Precedence
import DialectDb.Proofs.Unquoting

namespace DialectDb.Grammar

open DialectDb.Parser DialectDb.Unquoting

variable {g : Grammar} {s : Spot} {k : List Spot}

/-- A grammar that reads expressions and queries alike, with names in
quotes or without, and takes tokens from the front only. -/
structure TracksNames (g : Grammar) : Prop where
  makes : MakesWellFormed g
  expression : ∀ min s k, s.opens = true → Leads ⟨s, k⟩ (g.expression min) ⟨.behind, k⟩
  select : ∀ k, Leads ⟨.operand, k⟩ g.select ⟨.behind, k⟩

-- =========================================================== operators

private theorem unaryOp_ofToken_unreserved {word : Keyword} (hword : word.isUnreserved = true) :
    UnaryOp.ofToken? (.keyword word) = none := by
  revert hword
  cases word <;> decide

private theorem binaryOp_ofToken_unreserved {word : Keyword} (hword : word.isUnreserved = true) :
    BinaryOp.ofToken? (.keyword word) = none := by
  revert hword
  cases word <;> decide

/-- An operand is wanted behind an operator before one. -/
private theorem after_unaryOp (hs : s.opens = true) {t : Token} {op : UnaryOp}
    (h : UnaryOp.ofToken? t = some op) : Place.after ⟨s, k⟩ t = ⟨.operand, k⟩ := by
  unfold UnaryOp.ofToken? at h
  split at h
  case h_4 => cases h
  all_goals cases s <;> first | rfl | cases hs

/-- So it is behind one between two. -/
private theorem after_binaryOp {t : Token} {op : BinaryOp} (h : BinaryOp.ofToken? t = some op) :
    Place.after ⟨.behind, k⟩ t = ⟨.operand, k⟩ := by
  rw [eq_token_of_ofToken h]
  cases op <;> rfl

theorem passes_prefixOp (hs : s.opens = true) (min : Nat) :
    Passes ⟨s, k⟩ (prefixOp? min) fun o t =>
      o = none ∧ t = ⟨s, k⟩ ∨ o ≠ none ∧ t = ⟨.operand, k⟩ := by
  refine (passes_nextMap fun word hword _ _ => ?_).imp fun o o' t ho => ⟨ho.1, ?_⟩
  · rw [unaryOp_ofToken_unreserved hword]
    exact ⟨rfl, rfl⟩
  · refine ho.2.imp_right ?_
    rintro ⟨u, hu, hsome, rfl⟩
    refine ⟨hsome, ?_⟩
    cases hop : UnaryOp.ofToken? u with
    | none =>
        rw [hop] at hu
        exact absurd hu.symm hsome
    | some op => exact after_unaryOp hs hop

theorem passes_infixOp (min : Nat) :
    Passes ⟨.behind, k⟩ (infixOp? min) fun o t =>
      o = none ∧ t = ⟨.behind, k⟩ ∨ o ≠ none ∧ t = ⟨.operand, k⟩ := by
  refine tracks_peek fun o o' hpeek => ?_
  obtain rfl := Spot.eq_of_rel hpeek rfl
  refine .ite Iff.rfl (fun hnot => ?_) fun _ => ?_
  · subst hnot
    refine tracksOn_peekSecond fun o o' u hsecond => ?_
    have hsame := Spot.eq_some_iff_of_rel hsecond (t := .keyword .LIKE) rfl
    refine .ite (by simp [hsame]) (fun hboth => ?_) fun _ => ?_
    · obtain ⟨hlike, -⟩ := Bool.and_eq_true_iff.mp hboth
      obtain rfl := of_decide_eq_true hlike
      refine tracksOn_next rfl (fun _ hK => hK.1) ?_
      refine tracksOn_next (t := .keyword .LIKE) rfl (fun rest hK => ?_)
        (tracks_pure ⟨rfl, .inr ⟨nofun, rfl⟩⟩)
      exact List.head?_eq_getElem?.trans hK.2
    · exact tracks_pure ⟨rfl, .inl ⟨rfl, rfl⟩⟩
  · refine Tracks.on (TracksOn.passes (passes_nextMap fun word hword _ _ => ?_) fun o t ho => ?_)
    · rw [binaryOp_ofToken_unreserved hword]
      exact ⟨rfl, rfl⟩
    · refine tracks_pure ⟨rfl, ?_⟩
      rcases ho with ⟨rfl, rfl⟩ | ⟨u, hu, hsome, rfl⟩
      · exact .inl ⟨rfl, rfl⟩
      · cases hop : BinaryOp.ofToken? u with
        | none =>
            rw [hop] at hu
            exact absurd hu.symm hsome
        | some op =>
            refine .inr ⟨?_, after_binaryOp hop⟩
            rw [← hu, ne_eq, Option.map_eq_none_iff, hu]
            exact hsome

/-- The words that are looked for are reserved, so that no name is taken
for one. -/
theorem passes_negatable {word : Keyword} (hword : word.isUnreserved = false) :
    Passes ⟨.behind, k⟩ (negatable? word) fun o t =>
      o = none ∧ t = ⟨.behind, k⟩ ∨ o ≠ none ∧ t = Place.after ⟨.behind, k⟩ (.keyword word) := by
  have hmistakes (u : Spot) : u.mistakes (.keyword word) = false := by
    show (word.isUnreserved && u.names && !u.keeps word) = false
    rw [hword]
    rfl
  have hplain : Passes ⟨.behind, k⟩ (do
      if (← peek) = some (Token.keyword word) then
        expect word
        pure (some false)
      else pure none) fun o t =>
        o = none ∧ t = ⟨.behind, k⟩ ∨ o ≠ none ∧ t = Place.after ⟨.behind, k⟩ (.keyword word) := by
    refine tracks_peek fun o o' hpeek => .ite ?_ (fun _ => ?_) fun _ => ?_
    · exact Spot.eq_some_iff_of_rel hpeek (hmistakes _)
    · exact Tracks.on ((leads_expect (hmistakes _)).leads fun _ =>
        tracks_pure ⟨rfl, .inr ⟨nofun, rfl⟩⟩)
    · exact tracks_pure ⟨rfl, .inl ⟨rfl, rfl⟩⟩
  refine tracks_peek fun o o' hpeek => tracksOn_peekSecond fun second second' u hsecond => ?_
  obtain rfl := Spot.eq_of_rel hpeek rfl
  have hsame := Spot.eq_some_iff_of_rel hsecond (hmistakes u)
  refine .ite (by simp [hsame]) (fun hboth => ?_) fun _ => hplain.on
  obtain ⟨hnot, -⟩ := Bool.and_eq_true_iff.mp hboth
  obtain rfl := of_decide_eq_true hnot
  refine tracksOn_next rfl (fun _ hK => hK.1) (Tracks.on ?_)
  exact (leads_expect (hmistakes _)).leads fun _ => tracks_pure ⟨rfl, .inr ⟨nofun, rfl⟩⟩

theorem leads_atQuery : Leads ⟨s, k⟩ atQuery ⟨s, k⟩ := by
  refine tracks_peek fun o o' hpeek => tracks_pure ⟨?_, rfl⟩
  have hselect := Spot.eq_some_iff_of_rel hpeek (t := .keyword .SELECT) rfl
  have hwith := Spot.eq_some_iff_of_rel hpeek (t := .keyword .WITH) rfl
  simp only [hselect, hwith]

section
variable (hg : TracksNames g)
include hg

theorem leads_membership (negated : Bool) :
    Leads ⟨.behind, k⟩ (membership g negated) ⟨.behind, k⟩ := by
  refine Leads.parenthesized rfl (leads_atQuery.leads fun atQuery => ?_)
  refine .ite Iff.rfl (fun _ => ?_) fun _ => ?_
  · exact (hg.select _).leads fun query => leads_pure
  · exact (leads_commaList (hg.expression 0 _ _ rfl) (hg.expression 0 _ _ rfl)).leads fun items =>
      leads_pure

theorem leads_range (negated : Bool) :
    Leads ⟨.operand, k⟩ (range g negated) ⟨.behind, k⟩ := by
  refine (hg.expression _ _ _ rfl).leads fun low => (leads_expect rfl).leads fun _ => ?_
  exact (hg.expression _ _ _ rfl).leads fun high => leads_pure

theorem leads_postfixOp (min : Nat) :
    Leads ⟨.behind, k⟩ (postfixOp? g min) ⟨.behind, k⟩ := by
  refine .ite Iff.rfl (fun _ => leads_pure) fun _ => ?_
  refine (passes_negatable rfl).passes fun isIn t ht => ?_
  rcases ht with ⟨rfl, rfl⟩ | ⟨hsome, rfl⟩
  · refine (passes_negatable rfl).passes fun isBetween t ht => ?_
    rcases ht with ⟨rfl, rfl⟩ | ⟨hsome, rfl⟩
    · refine tracks_accept rfl ?_ leads_pure
      refine (passes_accept rfl).passes fun negated t ht => ?_
      have hbehind : t = ⟨.behind, k⟩ := by
        rw [ht]
        cases negated <;> rfl
      subst hbehind
      exact (leads_expect rfl).leads fun _ => leads_pure
    · obtain ⟨negated, rfl⟩ := Option.ne_none_iff_exists'.mp hsome
      exact (leads_range hg negated).map some
  · obtain ⟨negated, rfl⟩ := Option.ne_none_iff_exists'.mp hsome
    exact (leads_membership hg negated).map some

-- ============================================================ operands

omit hg in
theorem leads_numberLiteral {s : Place} (text : String) : Leads s (numberLiteral text) s := by
  refine .ite Iff.rfl (fun _ => .ite Iff.rfl (fun _ => leads_pure) fun _ => tracks_fault)
    fun _ => ?_
  cases Double.ofText? text with
  | none => exact tracks_fault
  | some d => exact leads_pure

theorem leads_arguments {e : Spot} : Leads ⟨.operand, e :: k⟩ (arguments g) ⟨e, k⟩ :=
  leads_closedList (fun upsert => (hg.makes.expression upsert 0).moves) (hg.expression 0 _ _ rfl)

/-- A name that begins the count of TOP is all of it, unless a
parenthesis or a period is next. -/
theorem leads_named (hs : s = .behind ∨ s = .counted) (name : String) :
    Leads ⟨s, k⟩ (named g name) ⟨s.closed, k⟩ := by
  have hcall : Place.after ⟨s, k⟩ (.sign .openParen) = ⟨.operand, s.closed :: k⟩ := by
    rcases hs with rfl | rfl <;> rfl
  have hcolumn : Leads (Place.after ⟨s, k⟩ (.sign .period)) identifier ⟨s.closed, k⟩ := by
    rcases hs with rfl | rfl
    · exact leads_identifier (s := .name) rfl
    · exact leads_identifier (s := .countName) rfl
  refine tracksOn_accept rfl ?_ (tracksOn_accept rfl ?_ ?_)
  · rw [hcall]
    exact (leads_arguments hg).leads fun args =>
      .ite Iff.rfl (fun _ => tracks_fault) fun _ => leads_pure
  · refine hcolumn.leads fun column => tracks_read fun around size => ?_
    exact .ite Iff.rfl (fun _ => leads_pure) fun _ => leads_pure
  · exact Tracks.move (fun tokens tokens' hplain htokens =>
      htokens.closed hs hplain.1.2 hplain.2) leads_pure

/-- A keyword that an operand begins with is all of it, or opens a
parenthesis. -/
theorem leads_keywordOperand (hs : s.begins = true) (word : Keyword) :
    Leads (Place.after ⟨s, k⟩ (.keyword word)) (keywordOperand g word) ⟨s.named, k⟩ := by
  have hliteral : ∀ u ∈ [Keyword.TRUE, .FALSE, .NULL], s.after (.keyword u) = s.named := by
    revert hs
    cases s <;> decide
  have hopening : ∀ u ∈ [Keyword.EXISTS, .VALUES],
      Place.after ⟨s.after (.keyword u), k⟩ (.sign .openParen) = ⟨.operand, s.named :: k⟩ := by
    intro u hu
    rcases List.mem_pair.mp hu with rfl | rfl <;> cases s <;> first | rfl | cases hs
  rw [Place.after_eq (.keyword word) nofun nofun]
  unfold keywordOperand
  split
  · rw [hliteral _ (by simp)]
    exact leads_pure
  · rw [hliteral _ (by simp)]
    exact leads_pure
  · rw [hliteral _ (by simp)]
    exact leads_pure
  · exact (Leads.parenthesized (hopening _ (by simp)) (hg.select _)).map _
  · refine tracks_read fun around size => .ite Iff.rfl (fun hvalues => ?_) fun _ => ?_
    · obtain ⟨hvalues, -⟩ := Bool.and_eq_true_iff.mp hvalues
      rw [of_decide_eq_true hvalues]
      exact (Leads.parenthesized (hopening _ (by simp)) (leads_identifier rfl)).map _
    · refine .ite Iff.rfl (fun hword => ?_) fun _ => tracks_fault
      rw [Spot.after_unreserved (.inr hs) hword]
      exact leads_pure

omit hg in
/-- A placeholder is counted in both texts. -/
theorem leads_placeholder {s : Place} : Leads s (do
    let cursor ← get
    set { cursor with ordinals := cursor.ordinals + 1 }
    pure (Expr.parameter (.positional cursor.ordinals))) s := by
  intro around size c c' _ hc
  exact .ok ⟨congrArg (Expr.parameter ∘ Placeholder.positional) hc.ordinals, rfl⟩
    ⟨hc.tokens, congrArg (· + 1) hc.ordinals⟩

theorem leads_operand (hs : s.begins = true) : Leads ⟨s, k⟩ (operand g) ⟨s.named, k⟩ := by
  have hsingle {t : Token} {x : Parser Expr} (ht : Place.after ⟨s, k⟩ t = ⟨s.named, k⟩)
      (hx : ∀ u, Leads u x u) : Leads (Place.after ⟨s, k⟩ t) x ⟨s.named, k⟩ := by
    rw [ht]
    exact hx _
  have hname (name : String) : ∃ u, (u = .behind ∨ u = .counted) ∧
      Place.after ⟨s, k⟩ (.ident name) = ⟨u, k⟩ ∧ u.closed = s.named := by
    cases s with
    | operand | first | rowCount => exact ⟨.behind, .inl rfl, rfl, rfl⟩
    | count => exact ⟨.counted, .inr rfl, rfl, rfl⟩
    | _ => cases hs
  refine tracks_next_of_admits (fun t => ?_) fun word => ?_
  · cases t with
    | keyword word => exact leads_keywordOperand hg hs word
    | sign mark =>
        cases mark with
        | asterisk =>
            exact hsingle (by cases s <;> first | rfl | cases hs) fun _ => leads_pure
        | question =>
            exact hsingle (by cases s <;> first | rfl | cases hs) fun _ => leads_placeholder
        | openParen =>
            have hopen : Place.after ⟨s, k⟩ (.sign .openParen) = ⟨.operand, s.named :: k⟩ := by
              cases s <;> first | rfl | cases hs
            rw [hopen]
            exact (hg.expression 0 _ _ rfl).leads fun e =>
              TracksOn.leads (leads_expect rfl) fun _ => leads_pure
        | _ => exact tracks_fault
    | number text =>
        exact hsingle (by cases s <;> first | rfl | cases hs) fun _ => leads_numberLiteral text
    | ident name =>
        obtain ⟨u, hu, hafter, hclosed⟩ := hname name
        rw [hafter, ← hclosed]
        exact leads_named hg hu name
    | string text => exact hsingle (by cases s <;> first | rfl | cases hs) fun _ => leads_pure
    | parameter name => exact hsingle (by cases s <;> first | rfl | cases hs) fun _ => leads_pure
  · intro around size c c' hadmits hc
    obtain ⟨hword, -, -, hnext⟩ := hadmits
    obtain ⟨hperiod, hparenthesis⟩ := hnext.resolve_left fun halone =>
      absurd (halone.symm.trans (Spot.alone_of_begins hs)) nofun
    obtain ⟨u, hu, hafter, hclosed⟩ := hname word.word
    show Outcomes _ ((named g word.word).perform around c)
      ((keywordOperand g word).perform { around with size } c')
    rw [perform_named_column hparenthesis hperiod, perform_keywordOperand_column hword]
    rw [hafter] at hc
    rw [← hclosed]
    exact .ok ⟨rfl, rfl⟩ ⟨hc.tokens.closed hu hparenthesis hperiod, hc.ordinals⟩

-- ========================================================== expressions

theorem leads_extend (min : Nat) (e : Expr) :
    Leads ⟨.behind, k⟩ (extend? g min e) ⟨.behind, k⟩ := by
  refine (leads_postfixOp hg min).leads fun apply => ?_
  cases apply with
  | some apply => exact leads_pure
  | none =>
      refine (passes_infixOp min).passes fun op t ht => ?_
      rcases ht with ⟨rfl, rfl⟩ | ⟨hsome, rfl⟩
      · exact leads_pure
      · obtain ⟨op, rfl⟩ := Option.ne_none_iff_exists'.mp hsome
        exact (hg.expression _ _ _ rfl).leads fun right => leads_pure

theorem leads_expressionWith (min : Nat) (hs : s.opens = true) :
    Leads ⟨s, k⟩ (expressionWith g min) ⟨.behind, k⟩ := by
  have hextend := leads_iterate (leads_extend (k := k) hg min)
  refine (passes_prefixOp hs min).passes fun op t ht => ?_
  rcases ht with ⟨rfl, rfl⟩ | ⟨hsome, rfl⟩
  · rw [← Spot.named_of_opens hs] at hextend ⊢
    exact (leads_operand hg (Spot.begins_of_opens hs)).leads hextend
  · obtain ⟨op, rfl⟩ := Option.ne_none_iff_exists'.mp hsome
    exact ((hg.expression _ _ _ rfl).map _).leads hextend

end

end DialectDb.Grammar
