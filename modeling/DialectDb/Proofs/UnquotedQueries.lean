/-
Queries are read alike with names in quotes and with bare keywords for
some of them. A query looks for words of its own where an unreserved
keyword may be a name as well: TOP before the selected items, ROW or ROWS
where the count of FETCH is left out, MATERIALIZED behind AS, RECURSIVE
behind WITH, and hints and paging where no name is wanted. At each of
them the place tells whether a name may be bare, so that none is mistaken
for such a word.
-/
import DialectDb.Proofs.MadeQueries
import DialectDb.Proofs.UnquotedExpressions

namespace DialectDb.Grammar

open DialectDb.Parser DialectDb.Unquoting

variable {g : Grammar} {s : Spot} {k : List Spot}

-- ==================================================== names and hints

theorem leads_tableName (hs : s = .name ∨ s = .operand) :
    Leads ⟨s, k⟩ tableName ⟨.behind, k⟩ := by
  have hname : Leads ⟨s, k⟩ identifier ⟨.behind, k⟩ := by
    rcases hs with rfl | rfl <;> exact leads_identifier rfl
  have hqualifier (name : String) : Leads ⟨.behind, k⟩
      (do if ← accept Sign.period then some <$> identifier else pure none) ⟨.behind, k⟩ :=
    tracks_accept rfl ((leads_identifier (s := .name) rfl).map some) leads_pure
  exact hname.leads fun name => leads_iterate hqualifier name

/-- An identifier is an alias and a keyword is none, but where one can
stand without AS no name is bare. -/
theorem leads_aliasName : Leads ⟨.behind, k⟩ aliasName? ⟨.behind, k⟩ := by
  refine tracks_accept rfl ((leads_identifier (s := .label) rfl).map some)
    (tracks_peek fun o o' hpeek => ?_)
  obtain rfl := Spot.eq_of_rel hpeek rfl
  split
  · next name =>
      have hname : TracksOn (fun tokens => tokens.head? = some (.ident name)) ⟨.behind, k⟩
          identifier identifier fun a b t => a = b ∧ t = ⟨.behind, k⟩ :=
        tracksOn_next rfl (fun _ => id) (tracks_pure ⟨rfl, rfl⟩)
      exact hname.map some fun _ _ => id
  · exact tracks_pure ⟨rfl, rfl⟩

/-- A hint may be a bare keyword, since it is kept in upper case. -/
private theorem upper_word (word : Keyword) : Text.upper word.word = word.text := by
  cases word <;> decide +kernel

/-- Any keyword can be the name of a hint. What is wanted behind it is
not always the same, but signs mean what they mean behind an operand. -/
theorem passes_tableHint : Passes ⟨.operand, k⟩ tableHint fun _ t =>
    ∃ u : Spot, u.usual = true ∧ t = ⟨u, k⟩ := by
  have hend (name : String) {u : Spot} (hu : u.usual = true) : Passes ⟨u, k⟩ (do
      if ← accept Sign.equal then
        let argument ← identifier
        pure (TableHint.table (name ++ "(" ++ argument ++ ")"))
      else if (← peek) = some (Token.sign .openParen) then
        let arguments ← identifierList
        pure (.table (name ++ "(" ++ ", ".intercalate arguments ++ ")"))
      else pure (.table name)) fun _ t => ∃ u : Spot, u.usual = true ∧ t = ⟨u, k⟩ := by
    refine tracks_accept rfl ?_ (tracks_peek fun o o' hpeek => .ite ?_ (fun _ => ?_) fun _ => ?_)
    · rw [Place.after_separator hu (.inl rfl)]
      exact (leads_identifier rfl).leads fun _ => tracks_pure ⟨rfl, _, rfl, rfl⟩
    · exact Spot.eq_some_iff_of_rel hpeek rfl
    · exact Tracks.on ((leads_identifierList (Place.after_openParen hu)).leads fun _ =>
        tracks_pure ⟨rfl, _, rfl, rfl⟩)
    · exact tracks_pure ⟨rfl, u, hu, rfl⟩
  refine tracks_next fun t t' hpairs => ?_
  cases hpairs with
  | same t =>
      cases t with
      | ident name => exact hend _ rfl
      | keyword word =>
          rw [Place.after_eq (.keyword word) nofun nofun]
          refine hend _ ?_
          cases word <;> rfl
      | _ => exact tracks_fault_bind
  | @bare word hword hnames hkeeps =>
      show Tracks ⟨.behind, k⟩ (pure (Text.upper word.word) >>= _) (pure word.text >>= _) _
      rw [upper_word]
      exact hend _ rfl

/-- Behind JOIN a name would be wanted, but a list in parentheses is
there. -/
theorem passes_indexScope : Passes ⟨.behind, k⟩ indexScope? fun _ t =>
    t.after (.sign .openParen) = ⟨.operand, .behind :: k⟩ := by
  refine tracks_accept rfl ?_ (tracks_pure ⟨rfl, rfl⟩)
  refine TracksOn.map some (P := fun _ t =>
    t.after (.sign .openParen) = ⟨.operand, .behind :: k⟩) ?_ fun _ _ => id
  refine tracks_next fun t t' hpairs => ?_
  obtain rfl := hpairs.eq rfl
  split
  · exact tracks_pure ⟨rfl, rfl⟩
  · exact TracksOn.leads (leads_expect rfl) fun _ => tracks_pure ⟨rfl, rfl⟩
  · exact TracksOn.leads (leads_expect rfl) fun _ => tracks_pure ⟨rfl, rfl⟩
  · exact tracks_fault

theorem leads_indexName : Leads ⟨.operand, k⟩ indexName ⟨.behind, k⟩ := by
  refine tracks_next fun t t' hpairs => ?_
  cases hpairs with
  | same t =>
      split
      · exact leads_pure
      · next name _ hname =>
          rw [after_name rfl hname]
          exact leads_pure
      · exact tracks_fault
  | @bare word hword hnames hkeeps =>
      cases word <;> first | exact leads_pure | cases hword

/-- The scope and the names of an index hint. -/
private theorem leads_indexHintNames (action : IndexAction) : Leads ⟨.behind, k⟩ (do
    let scope ← indexScope?
    expect Sign.openParen
    pure (TableHint.index action scope (← indexNames))) ⟨.behind, k⟩ := by
  refine passes_indexScope.passes fun scope t ht => TracksOn.leads (leads_expect rfl) fun _ => ?_
  rw [ht]
  have hnames : Leads ⟨.operand, .behind :: k⟩ indexNames ⟨.behind, k⟩ :=
    leads_closedList (fun _ => moves_indexName) leads_indexName
  exact hnames.leads fun _ => leads_pure

/-- What is behind the action of an index hint. -/
private theorem leads_indexHintEnd (action : IndexAction) : Leads ⟨.behind, k⟩ (do
    match ← next with
    | .keyword .INDEX | .keyword .KEY => pure ()
    | found => fault (.expected "INDEX or KEY" found)
    let scope ← indexScope?
    expect Sign.openParen
    pure (TableHint.index action scope (← indexNames))) ⟨.behind, k⟩ := by
  refine tracks_next fun t t' hpairs => ?_
  obtain rfl := hpairs.eq rfl
  split
  case h_3 => exact tracks_fault_bind
  all_goals exact leads_indexHintNames action

theorem leads_indexHint : Leads ⟨.behind, k⟩ indexHint ⟨.behind, k⟩ := by
  refine tracks_next fun t t' hpairs => ?_
  obtain rfl := hpairs.eq rfl
  split
  case h_4 => exact tracks_fault_bind
  all_goals exact leads_indexHintEnd _

theorem leads_tableHints : Leads ⟨.behind, k⟩ tableHints ⟨.behind, k⟩ := by
  have hlist (u : Spot) (hu : u.usual = true) (hints : List TableHint) : Leads ⟨u, k⟩ (do
      pure (some (hints ++ (← parenthesized (commaList tableHint))))) ⟨.behind, k⟩ := by
    let I : Place → Prop := fun t => ∃ u : Spot, u.usual = true ∧ t = ⟨u, .behind :: k⟩
    have hitem (items : List TableHint) : Passes ⟨.operand, .behind :: k⟩
        (do pure (items ++ [← tableHint])) fun _ t => I t :=
      passes_tableHint.passes fun _ _ ht => tracks_pure ⟨rfl, ht⟩
    have hitems : Passes ⟨.operand, .behind :: k⟩ (commaList tableHint) fun _ t => I t := by
      refine passes_commaFold hitem hitem ?_ []
      rintro _ ⟨u, hu, rfl⟩
      exact Place.after_separator hu (.inr rfl)
    refine (leads_parenthesized (Place.after_openParen hu) ?_ hitems).leads fun _ => leads_pure
    rintro _ _ ⟨u, hu, rfl⟩
    exact Place.after_closeParen hu
  have hindex (hints : List TableHint) : Leads ⟨.behind, k⟩ (do
      require (spellsHints .index) .indexHints
      pure (some (hints ++ [← indexHint]))) ⟨.behind, k⟩ :=
    (leads_require _ _).leads fun _ => leads_indexHint.leads fun _ => leads_pure
  refine leads_iterate (fun hints => tracks_peek fun o o' hpeek => ?_) []
  obtain rfl := Spot.eq_of_rel hpeek rfl
  split
  · exact tracksOn_require (tracksOn_next rfl (fun _ => id) (Tracks.on (hlist _ rfl hints)))
  · exact Tracks.on ((leads_require _ _).leads fun _ => hlist _ rfl hints)
  · exact Tracks.on (hindex hints)
  · exact Tracks.on (hindex hints)
  · exact Tracks.on (hindex hints)
  · exact tracks_pure ⟨rfl, rfl⟩

/-- Query hints are read up to the next closing parenthesis. Their words
are kept in upper case, whatever they are. -/
theorem leads_queryHintWords : Leads ⟨.hints, k⟩ queryHintWords ⟨.behind, k⟩ := by
  refine leads_iterate_last (P := fun _ t => t = ⟨.hints, k⟩) (n := fun _ => 1)
    (fun (hints, words) u hu => ?_) (fun around (hints, words) b c d hperform => ?_)
    (fun _ => Nat.le_refl 1) rfl
  · subst hu
    refine tracks_next fun t t' hpairs => ?_
    obtain rfl := hpairs.eq rfl
    split
    · exact tracks_pure ⟨rfl, fun _ => rfl, nofun⟩
    · exact tracks_pure ⟨rfl, nofun, fun _ _ => rfl⟩
    · next hclose _ =>
        rw [Place.after_hints hclose]
        exact tracks_pure ⟨rfl, nofun, fun _ _ => rfl⟩
  · obtain ⟨t, c₁, hnext, hrest⟩ := perform_bind_eq_ok.mp hperform
    have hd : c₁ = d := by
      split at hrest
      · cases hrest
      · cases hrest
        rfl
      · cases hrest
        rfl
    rw [← hd, (Copy.perform_next_eq_ok hnext).1, List.length_cons]
    exact ⟨rfl, Nat.le_refl _⟩

theorem leads_queryHints : Leads ⟨.behind, k⟩ queryHints ⟨.behind, k⟩ := by
  refine TracksOn.leads (leads_clause ?_) fun _ => leads_pure
  refine (leads_require _ _).leads fun _ => TracksOn.leads (leads_expect rfl) fun _ => ?_
  exact leads_queryHintWords.leads fun _ => .ite Iff.rfl (fun _ => tracks_fault) fun _ => leads_pure

-- ==================================================== tables and clauses

theorem leads_tableRef (hs : s = .name ∨ s = .operand) : Leads ⟨s, k⟩ tableRef ⟨.behind, k⟩ :=
  (leads_tableName hs).leads fun _ => leads_aliasName.leads fun _ =>
    leads_tableHints.leads fun _ => leads_pure

/-- Behind JOIN a name is wanted. Behind a comma a name is as well, but
that is not told. -/
theorem passes_joinKind : Passes ⟨.behind, k⟩ joinKind? fun o t => o = none ∧ t = ⟨.behind, k⟩ ∨
    o ≠ none ∧ ∃ s : Spot, (s = .name ∨ s = .operand) ∧ t = ⟨s, k⟩ := by
  have hjoin (kind : JoinKind) : Passes ⟨.behind, k⟩ (do
      expect Keyword.JOIN
      pure (some kind)) fun o t => o = none ∧ t = ⟨.behind, k⟩ ∨
        o ≠ none ∧ ∃ s : Spot, (s = .name ∨ s = .operand) ∧ t = ⟨s, k⟩ :=
    TracksOn.leads (leads_expect rfl) fun _ => tracks_pure ⟨rfl, .inr ⟨nofun, _, .inl rfl, rfl⟩⟩
  have houter (kind : JoinKind) : Passes ⟨.behind, k⟩ (do
      skipOver Keyword.OUTER
      expect Keyword.JOIN
      pure (some kind)) fun o t => o = none ∧ t = ⟨.behind, k⟩ ∨
        o ≠ none ∧ ∃ s : Spot, (s = .name ∨ s = .operand) ∧ t = ⟨s, k⟩ :=
    (leads_skipOver rfl rfl).leads fun _ => hjoin kind
  refine tracks_accept rfl (tracks_pure ⟨rfl, .inr ⟨nofun, _, .inr rfl, rfl⟩⟩) ?_
  refine tracks_accept rfl (tracks_pure ⟨rfl, .inr ⟨nofun, _, .inl rfl, rfl⟩⟩) ?_
  refine tracks_accept rfl (hjoin .cross) (tracks_accept rfl (hjoin .inner) ?_)
  refine tracks_accept rfl (houter .left) (tracks_accept rfl (houter .right) ?_)
  exact tracks_pure ⟨rfl, .inl ⟨rfl, rfl⟩⟩

section
variable (hg : TracksNames g)
include hg

theorem leads_join : Leads ⟨.behind, k⟩ (join? g) ⟨.behind, k⟩ := by
  refine passes_joinKind.passes fun kind t ht => ?_
  rcases ht with ⟨rfl, rfl⟩ | ⟨hsome, s, hs, rfl⟩
  · exact leads_pure
  · obtain ⟨kind, rfl⟩ := Option.ne_none_iff_exists'.mp hsome
    refine (leads_tableRef hs).leads fun table => .ite Iff.rfl (fun _ => leads_pure) fun _ => ?_
    exact TracksOn.leads (leads_expect rfl) fun _ =>
      (hg.expression 0 _ _ rfl).leads fun _ => leads_pure

theorem leads_joins : Leads ⟨.behind, k⟩ (joins g) ⟨.behind, k⟩ :=
  leads_iterate (fun _ => (leads_join hg).leads fun _ => leads_pure) []

theorem leads_whereClause : Leads ⟨.behind, k⟩ (whereClause g) ⟨.behind, k⟩ :=
  leads_clause (hg.expression 0 _ _ rfl)

/-- Where TOP is not there, that may be remembered or not. -/
theorem passes_topClause (hs : s = .item ∨ s = .first) :
    Passes ⟨.item, k⟩ (topClause g) fun o t =>
      o = none ∧ t = ⟨s, k⟩ ∨ o ≠ none ∧ t = ⟨.operand, k⟩ := by
  refine tracksOn_accept rfl ?_ ?_
  · refine TracksOn.map some (P := fun _ t => t = ⟨.operand, k⟩) ?_
      fun _ _ ht => .inr ⟨nofun, ht⟩
    exact (leads_require _ _).leads fun _ => leads_operand hg (s := .count) rfl
  · refine Tracks.move (fun tokens tokens' hhead htokens => ?_) (tracks_pure ⟨rfl, .inl ⟨rfl, rfl⟩⟩)
    rcases hs with rfl | rfl
    · exact htokens
    · exact htokens.first hhead.2

theorem leads_selectItem (hs : s.opens = true) :
    Leads ⟨s, k⟩ (selectItem g) ⟨.behind, k⟩ :=
  (hg.expression 0 _ _ hs).leads fun _ =>
    .ite Iff.rfl (fun _ => leads_pure) fun _ => leads_aliasName.leads fun _ => leads_pure

theorem leads_groupByClause : Leads ⟨.behind, k⟩ (groupByClause g) ⟨.behind, k⟩ :=
  leads_clauseItems (TracksOn.leads (leads_expect rfl) fun _ =>
    leads_commaList (hg.expression 0 _ _ rfl) (hg.expression 0 _ _ rfl))

theorem leads_orderByClause : Leads ⟨.behind, k⟩ (orderByClause g) ⟨.behind, k⟩ := by
  have hkey : Leads ⟨.operand, k⟩ (sortKey g) ⟨.behind, k⟩ := by
    refine (hg.expression 0 _ _ rfl).leads fun e => ?_
    refine (passes_nextMap fun word hword _ _ => ⟨rfl, ?_⟩).passes fun direction t ht => ?_
    · cases word <;> first | rfl | cases hword
    · refine tracks_pure ⟨rfl, ?_⟩
      rcases ht with ⟨-, rfl⟩ | ⟨u, hu, hsome, rfl⟩
      · rfl
      · split at hu
        · rfl
        · rfl
        · exact absurd hu.symm hsome
  exact leads_clauseItems (TracksOn.leads (leads_expect rfl) fun _ => leads_commaList hkey hkey)

/-- A query from its selected items on. -/
private theorem leads_coreEnd (distinct : Bool) (limit : Option Expr) (hs : s.opens = true) :
    Leads ⟨s, k⟩ (do
      let columns ← commaList (selectItem g)
      let tables? ← clause? .FROM do
        let source ← tableRef
        pure (source, ← joins g)
      let predicate ← whereClause g
      let groupBy ← groupByClause g
      let having ← clause? .HAVING (g.expression 0)
      pure ({
        ctes := [], distinct, columns, source := tables?.map Prod.fst
        joins := (tables?.map Prod.snd).getD [], predicate, groupBy, having, unions := []
        orderBy := [], offset := none, limit, queryHints := [] } : Select)) ⟨.behind, k⟩ := by
  have hitems := leads_commaList (k := k) (leads_selectItem hg hs) (leads_selectItem hg rfl)
  have hfrom : Leads ⟨.behind, k⟩ (clause? .FROM do
      let source ← tableRef
      pure (source, ← joins g)) ⟨.behind, k⟩ :=
    leads_clause ((leads_tableRef (.inl rfl)).leads fun source =>
      (leads_joins hg).leads fun joins => leads_pure)
  refine hitems.leads fun columns => hfrom.leads fun tables => ?_
  refine (leads_whereClause hg).leads fun predicate => (leads_groupByClause hg).leads fun keys => ?_
  exact (leads_clause (hg.expression 0 _ _ rfl)).leads fun having => leads_pure

theorem leads_core {s : Place} (hs : s.after (.keyword .SELECT) = ⟨.item, k⟩) :
    Leads s (core g) ⟨.behind, k⟩ := by
  refine TracksOn.leads (leads_expect rfl) fun _ => ?_
  rw [hs]
  refine (passes_topClause hg (.inl rfl)).passes fun early t ht => ?_
  rcases ht with ⟨rfl, rfl⟩ | ⟨hsome, rfl⟩
  · refine (leads_accept rfl rfl).leads fun distinct => .when (leads_skipOver rfl rfl) ?_
    refine (passes_topClause hg (.inr rfl)).passes fun limit u hu => ?_
    rcases hu with ⟨-, rfl⟩ | ⟨-, rfl⟩
    · exact leads_coreEnd hg distinct limit rfl
    · exact leads_coreEnd hg distinct limit rfl
  · obtain ⟨count, rfl⟩ := Option.ne_none_iff_exists'.mp hsome
    refine (leads_accept rfl rfl).leads fun distinct => .when (leads_skipOver rfl rfl) ?_
    exact leads_coreEnd hg distinct (some count) rfl

-- ============================================================== paging

omit hg in
/-- The rest of FETCH behind the count. -/
private theorem leads_rowsOnly (count : Expr) (hs : s = .rowCount ∨ s = .behind) :
    Leads ⟨s, k⟩ (do
    match ← next with
    | .keyword .ROW | .keyword .ROWS => pure ()
    | found => fault (.expected "ROW or ROWS" found)
    expect Keyword.ONLY
    pure count) ⟨.behind, k⟩ := by
  have honly : Leads ⟨.behind, k⟩ (do
      expect Keyword.ONLY
      pure count) ⟨.behind, k⟩ :=
    TracksOn.leads (leads_expect rfl) fun _ => leads_pure
  have hafter (word : Keyword) (hword : word = .ROW ∨ word = .ROWS) :
      Place.after ⟨s, k⟩ (.keyword word) = ⟨.behind, k⟩ := by
    rcases hs with rfl | rfl <;> rcases hword with rfl | rfl <;> rfl
  refine tracks_next fun t t' hpairs => ?_
  cases hpairs with
  | same t =>
      split
      · rw [hafter _ (.inl rfl)]
        exact honly
      · rw [hafter _ (.inr rfl)]
        exact honly
      · exact tracks_fault_bind
  | @bare word hword hnames hkeeps =>
      have hne : word ≠ .ROW ∧ word ≠ .ROWS := by
        rcases hs with rfl | rfl
        · simpa [Spot.keeps] using hkeeps
        · cases hnames
      cases word <;> first
        | exact tracks_fault_bind
        | exact absurd rfl hne.1
        | exact absurd rfl hne.2

/-- Where the count is left out, ROW or ROWS is there in both texts. -/
theorem leads_fetchCount : Leads ⟨.fetch, k⟩ (fetchCount g) ⟨.behind, k⟩ := by
  have hcount : Leads ⟨.rowCount, k⟩ (do
      let count ← g.expression 0
      match ← next with
      | .keyword .ROW | .keyword .ROWS => pure ()
      | found => fault (.expected "ROW or ROWS" found)
      expect Keyword.ONLY
      pure count) ⟨.behind, k⟩ :=
    (hg.expression 0 _ _ rfl).leads fun count => leads_rowsOnly count (.inr rfl)
  refine tracks_next fun t t' hpairs => ?_
  obtain rfl := hpairs.eq rfl
  split
  case h_3 => exact tracks_fault_bind
  all_goals
    show Tracks ⟨.rowCount, k⟩ _ _ _
    refine tracks_peek fun o o' hpeek => Tracks.on ?_
    cases hpeek with
    | none => exact hcount
    | some hpairs =>
        cases hpairs with
        | same t =>
            split
            · exact leads_pure.leads fun count => leads_rowsOnly count (.inl rfl)
            · exact leads_pure.leads fun count => leads_rowsOnly count (.inl rfl)
            · exact hcount
        | @bare word hword hnames hkeeps =>
            have hne : word ≠ .ROW ∧ word ≠ .ROWS := by simpa [Spot.keeps] using hkeeps
            cases word <;> first
              | exact hcount
              | exact absurd rfl hne.1
              | exact absurd rfl hne.2

theorem leads_limitPaging : Leads ⟨.operand, k⟩ (limitPaging g) ⟨.behind, k⟩ := by
  refine (leads_require _ _).leads fun _ => (hg.expression 0 _ _ rfl).leads fun first => ?_
  refine tracks_accept rfl ((hg.expression 0 _ _ rfl).leads fun _ => leads_pure) ?_
  exact (leads_clause (hg.expression 0 _ _ rfl)).leads fun _ => leads_pure

theorem leads_offsetPaging (ordered : Bool) :
    Leads ⟨.operand, k⟩ (offsetPaging g ordered) ⟨.behind, k⟩ := by
  refine (hg.expression 0 _ _ rfl).leads fun offset => (leads_accept rfl rfl).leads fun row => ?_
  have hend (rows : Bool) : Leads ⟨.behind, k⟩ (do
      if rows then
        require (·.supportsPaging) .paging
        let limit ← clause? .FETCH (fetchCount g)
        if (← read).version.dialect.pagingRequiresOrderBy && !ordered then
          throw (.invalid .pagingWithoutOrder)
        pure ({ offset, limit } : Paging)
      else
        require (·.dialect.limitOffset) .bareOffset
        pure { offset, limit := ← clause? .LIMIT (g.expression 0) }) ⟨.behind, k⟩ := by
    have hfetch : Leads ⟨.behind, k⟩ (clause? .FETCH (fetchCount g)) ⟨.behind, k⟩ :=
      leads_clause (leads_fetchCount hg)
    refine .ite Iff.rfl (fun _ => (leads_require _ _).leads fun _ => ?_) fun _ => ?_
    · refine hfetch.leads fun limit => tracks_read fun around size => ?_
      exact .ite Iff.rfl (fun _ => tracks_throw_bind) fun _ => leads_pure
    · refine (leads_require _ _).leads fun _ => ?_
      exact (leads_clause (hg.expression 0 _ _ rfl)).leads fun _ => leads_pure
  exact .ite Iff.rfl (fun _ => hend true) fun _ => (leads_accept rfl rfl).leads hend

theorem leads_paging (ordered : Bool) : Leads ⟨.behind, k⟩ (paging? g ordered) ⟨.behind, k⟩ := by
  have hfetch : Leads ⟨.fetch, k⟩ (fetchPaging g) ⟨.behind, k⟩ :=
    (leads_require _ _).leads fun _ => (leads_fetchCount hg).leads fun _ => leads_pure
  refine (passes_nextMap fun word hword _ _ => ⟨rfl, ?_⟩).passes fun paging t ht => ?_
  · cases word <;> first | rfl | cases hword
  · rcases ht with ⟨rfl, rfl⟩ | ⟨u, hu, hsome, rfl⟩
    · exact leads_pure
    · split at hu
      · subst hu
        exact (leads_limitPaging hg).map some
      · subst hu
        exact (leads_offsetPaging hg ordered).map some
      · subst hu
        exact hfetch.map some
      · exact absurd hu.symm hsome

-- ================================================================ WITH

omit hg in
/-- Whichever it is, the named query in parentheses is behind it. -/
theorem passes_materialization : Passes ⟨.label, k⟩ materialization? fun _ t =>
    t.after (.sign .openParen) = ⟨.operand, .behind :: k⟩ := by
  have hhint : Passes ⟨.label, k⟩ materializedHint? fun _ t =>
      t.after (.sign .openParen) = ⟨.operand, .behind :: k⟩ := by
    refine tracks_accept rfl (tracks_pure ⟨rfl, rfl⟩)
      (tracks_accept rfl ?_ (tracks_pure ⟨rfl, rfl⟩))
    exact TracksOn.leads (leads_expect rfl) fun _ => tracks_pure ⟨rfl, rfl⟩
  exact hhint.passes fun _ t ht => .when (leads_require _ _) (tracks_pure ⟨rfl, ht⟩)

theorem leads_cte (recursive : Bool) (hs : s = .name ∨ s = .operand) :
    Leads ⟨s, k⟩ (cte g recursive) ⟨.behind, k⟩ := by
  have hname : Leads ⟨s, k⟩ identifier ⟨.behind, k⟩ := by
    rcases hs with rfl | rfl <;> exact leads_identifier rfl
  have hend (name : String) (columns : List String) : Leads ⟨.behind, k⟩ (do
      expect Keyword.AS
      let materialized ← materialization?
      let body ← parenthesized do
        let body ← g.select
        if body.ctes.isEmpty then pure body else fault (.nestedWith name)
      pure (⟨name, columns, recursive, materialized, body⟩ : Cte)) ⟨.behind, k⟩ := by
    refine TracksOn.leads (leads_expect rfl) fun _ => ?_
    refine passes_materialization.passes fun materialized t ht => ?_
    refine (Leads.parenthesized ht ?_).leads fun body => leads_pure
    exact (hg.select _).leads fun body =>
      .ite Iff.rfl (fun _ => leads_pure) fun _ => tracks_fault
  refine hname.leads fun name => tracks_peek fun o o' hpeek => .ite ?_ ?_ ?_
  · exact Spot.eq_some_iff_of_rel hpeek rfl
  · exact fun _ => Tracks.on ((leads_identifierList rfl).leads (hend name))
  · exact fun _ => Tracks.on (hend name [])

theorem passes_withClause : Passes ⟨.operand, k⟩ (withClause g) fun _ t =>
    t.after (.keyword .SELECT) = ⟨.item, k⟩ := by
  have hlist (recursive : Bool) : Leads ⟨.name, k⟩ (commaList (cte g recursive)) ⟨.behind, k⟩ :=
    leads_commaList (leads_cte hg recursive (.inl rfl)) (leads_cte hg recursive (.inr rfl))
  have hctes : Leads ⟨.namedQuery, k⟩ (do
      require (·.supportsCte) .withClause
      let recursive ← accept Keyword.RECURSIVE
      if recursive then require (·.supportsRecursiveCte) .withRecursive
      commaList (cte g recursive)) ⟨.behind, k⟩ := by
    refine (leads_require _ _).leads fun _ => tracksOn_accept rfl ?_ ?_
    · exact (leads_require _ _).leads fun _ => hlist true
    · exact Tracks.move (fun _ _ hhead htokens => htokens.query hhead.2) (hlist false)
  refine TracksOn.passes (P := fun _ t => t.after (.keyword .SELECT) = ⟨.item, k⟩) ?_
    fun _ _ ht => tracks_pure ⟨rfl, ht⟩
  refine tracks_accept rfl ?_ (tracks_pure ⟨rfl, rfl⟩)
  exact TracksOn.map some hctes fun _ t ht => ht ▸ rfl

-- ============================================================= queries

theorem leads_unions : Leads ⟨.behind, k⟩ (unions g) ⟨.behind, k⟩ := by
  refine leads_iterate (fun branches => tracks_accept rfl ?_ leads_pure) []
  exact (leads_accept rfl rfl).leads fun all => (leads_core hg rfl).leads fun _ => leads_pure

theorem leads_selectWith : Leads ⟨.operand, k⟩ (selectWith g) ⟨.behind, k⟩ := by
  have hend (q : Select) : Leads ⟨.behind, k⟩ (do pure { q with queryHints := ← queryHints })
      ⟨.behind, k⟩ :=
    leads_queryHints.leads fun _ => leads_pure
  refine (passes_withClause hg).passes fun ctes t ht => (leads_core hg ht).leads fun first => ?_
  refine (leads_unions hg).leads fun unions => (leads_orderByClause hg).leads fun orderBy => ?_
  refine (leads_paging hg _).leads fun paging => ?_
  cases paging with
  | none => exact hend _
  | some paging =>
      exact .ite Iff.rfl (fun _ => tracks_throw_bind) fun _ => hend _

end

/-- Grammars of all depths do. -/
theorem tracksNames_ofDepth (depth : Nat) : TracksNames (ofDepth depth) := by
  induction depth with
  | zero =>
      exact ⟨makesWellFormed_ofDepth 0,
        fun _ _ _ _ => tracks_of_fails Copy.fails_ending Copy.fails_ending,
        fun _ => tracks_of_fails Copy.fails_ending Copy.fails_ending⟩
  | succ depth ih =>
      exact ⟨makesWellFormed_ofDepth _, fun min _ _ hs => leads_expressionWith ih min hs,
        fun _ => leads_selectWith ih⟩

end DialectDb.Grammar
