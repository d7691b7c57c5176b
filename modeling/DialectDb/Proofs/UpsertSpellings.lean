/-
The two ways to write an upsert. Behind the same INSERT both read the
same assignments, where `excluded.c` and `VALUES(c)` are the same operand
at any depth of an assigned expression. The INSERT in front is read as it
is on its own, since no query and no row goes on with ON.

`VALUES(c)` can only be an operand, while `excluded.c` could also name a
table of a subquery. So the other spelling is shown to be read where
`VALUES(c)` is.
-/
import DialectDb.Proofs.Clauses
import DialectDb.Proofs.RespelledStatements
import DialectDb.Proofs.SettledAssignments

namespace DialectDb

open DialectDb.Parser

-- =========================================================== insertion

namespace Grammar

/-- INSERT up to what is to be done with rows that conflict. -/
def insertion (g : Grammar) : Parser Insert := do
  expect Keyword.INSERT
  expect Keyword.INTO
  let table ← tableName
  let columns ← columnList?
  if ← atQuery then
    let query ← g.select
    pure { table, columns, rows := [], query }
  else
    expect Keyword.VALUES
    pure { table, columns, rows := ← commaList (valueRow g), query := none }

theorem insert_eq (g : Grammar) :
    insert g = insertion g >>= fun i => Statement.insert <$> conflictClause g i := by
  unfold insert insertion
  simp only [bind_assoc, pure_bind]
  repeat
    congr 1
    funext _
  split
  · simp only [bind_assoc, pure_bind]
  · simp only [bind_assoc, pure_bind]

/-- Nothing is said yet of rows that conflict. -/
theorem yields_insertion (g : Grammar) : Yields (insertion g) fun i => i.conflictTarget = [] := by
  refine yields_bind fun _ => yields_bind fun _ => yields_bind fun _ => yields_bind fun _ => ?_
  refine yields_bind fun atQuery => ?_
  split
  · exact yields_bind fun _ => yields_pure rfl
  · exact yields_bind fun _ => yields_bind fun _ => yields_pure rfl

end Grammar

namespace Respelling

open Grammar

variable {k : Respelling} {m : Nat} {edge : Bool} {g g' : Grammar}

/-- VALUES stands in both where nothing is proposed. -/
theorem follows_expect_values (hplain : k.proposes = false) :
    k.Follows m false (expect Keyword.VALUES) (expect Keyword.VALUES) fun _ => ⟨false, 1⟩ where
  keeps {c c' _ d} hlt hsynced hperform := by
    have hc := perform_expect hperform
    rcases hsynced.spells.heads with ⟨t, rest, rest', heq, hc', hrest⟩ | ⟨hend, -⟩ | ⟨hproposes, -⟩
    · rw [heq] at hc
      cases hc
      exact .inl (hsynced.keeps_token heq hc' hrest takes_expect takes_expect hperform).2
    · rw [hc] at hend
      cases hend
    · rw [hplain] at hproposes
      cases hproposes
  strays := nofun

theorem follows_columnList :
    k.Follows m false columnList? columnList? fun _ => ⟨false, 0⟩ :=
  follows_ifPeek (by decide) (.inr (not_parting (by decide)))
    (.map (follows_identifierList.loosen (Nat.zero_le 1))) (follows_pure nofun rfl)

/-- All of an INSERT up to ON. -/
theorem follows_insertion (hends : k.Ends [.keyword .ON]) (hg : k.FollowsGrammar m g g')
    (hselect : k.Follows m false g.select g'.select fun _ => ⟨false, 0⟩) :
    k.Follows m false (insertion g) (insertion g') fun _ => ⟨false, 0⟩ := by
  refine (follows_expect (by decide)).then fun _ => (follows_expect (by decide)).then fun _ => ?_
  refine follows_tableName.then fun table => follows_columnList.then fun columns => ?_
  refine follows_atQuery.then fun query => .ite (fun _ => ?_) fun _ => ?_
  · exact hselect.then fun query => follows_pure nofun rfl
  · have hrow : k.Follows m false (valueRow g) (valueRow g') fun _ => ⟨false, 1⟩ :=
      follows_parenthesized (follows_commaList (.inl rfl)
        ((hg.expression 0).loosen (Nat.le_refl 1)))
    refine (follows_expect_values hends.plain).then fun _ => ?_
    exact (follows_commaList (.inr (hends.not_parting (by decide))) hrow).then fun rows =>
      follows_pure nofun rfl

/-- Inside of upsert assignments nothing changes. -/
theorem perform_upserting {α : Type} {x : Parser α} {around : Surroundings} {c : Cursor}
    (h : around.upsert = true) :
    (withReader ({ · with upsert := true }) x : Parser α).perform around c =
      x.perform around c := by
  cases around
  cases h
  rfl

/-- All assignments of an upsert. -/
theorem follows_writtenAssignments (hupsert : k.around.upsert = true)
    (hcomma : ¬k.Parting (.sign .comma)) (hg : k.FollowsGrammar m g g') :
    k.Follows m false (writtenAssignments g) (writtenAssignments g') fun _ => ⟨false, 1⟩ where
  keeps hlt hsynced hperform := by
    have hitem : k.Follows m false
        (do
          let column ← identifier
          expect Sign.equal
          pure (Assignment.mk column (← g.expression 0)))
        (do
          let column ← identifier
          expect Sign.equal
          pure (Assignment.mk column (← g'.expression 0))) fun _ => ⟨false, 1⟩ := by
      refine follows_identifier.then fun column => (follows_expect (by decide)).then fun _ => ?_
      exact (hg.expression 0).then fun value => follows_pure nofun rfl
    unfold writtenAssignments at hperform
    rw [perform_upserting hupsert] at hperform
    exact ((follows_commaList (.inr hcomma) hitem).keeps hlt hsynced hperform).of_perform_eq
      (perform_upserting hupsert)
  strays := nofun

end Respelling

namespace Grammar

open Respelling

variable {g : Grammar} {v : DialectVersion} {around : Surroundings} {c d : Cursor} {i i' : Insert}

-- ================================================================ heads

/-- The ways to say that the row in the way is to be changed. -/
def upsertHeads : List (List Token) :=
  [[.keyword .ON, .keyword .CONFLICT, .keyword .DO, .keyword .UPDATE, .keyword .SET],
    [.keyword .ON, .keyword .DUPLICATE, .keyword .KEY, .keyword .UPDATE]]

/-- Reads one of them. -/
def upsertHead : Parser Unit := do
  expect Keyword.ON
  match ← next with
  | .keyword .CONFLICT =>
    expect Keyword.DO
    expect Keyword.UPDATE
    expect Keyword.SET
  | .keyword .DUPLICATE =>
    expect Keyword.KEY
    expect Keyword.UPDATE
  | found => fault (.unexpected found)

/-- Reads an upsert with its assignments as they are written. -/
def writtenUpsert (g : Grammar) : Parser (Insert × List Assignment) := do
  let i ← insertion g
  upsertHead
  pure (i, ← writtenAssignments g)

theorem takes_upsertHead {head : List Token} (hhead : head ∈ upsertHeads) (rest : List Token) :
    Takes around upsertHead (head ++ rest) () rest := by
  simp only [upsertHeads, List.mem_cons, List.not_mem_nil, or_false] at hhead
  rcases hhead with rfl | rfl
  · refine takes_bind takes_expect (takes_bind takes_next ?_)
    exact takes_bind takes_expect (takes_bind takes_expect takes_expect)
  · refine takes_bind takes_expect (takes_bind takes_next ?_)
    exact takes_bind takes_expect takes_expect

/-- From some tokens, a reader goes on as another one does from those
behind them. -/
def Resumes {α : Type} (around : Surroundings) (x : Parser α) (tokens : List Token) (y : Parser α)
    (rest : List Token) : Prop :=
  ∀ c : Cursor, c.tokens = tokens → ∃ behind : Cursor, behind.tokens = rest ∧
    behind.ordinals = c.ordinals ∧ x.perform around c = y.perform around behind

theorem resumes_self {α : Type} {x : Parser α} {tokens : List Token} :
    Resumes around x tokens x tokens :=
  fun c hc => ⟨c, hc, rfl, rfl⟩

theorem Resumes.after {α β : Type} {z : Parser β} {f : β → Parser α} {y : Parser α} {b : β}
    {tokens mid rest : List Token} (h : Resumes around (f b) mid y rest)
    (hz : Takes around z tokens b mid) : Resumes around (z >>= f) tokens y rest := by
  intro c hc
  obtain ⟨c₁, hperform, hmid, hordinals⟩ := hz c hc
  obtain ⟨behind, hbehind, hordinals', heq⟩ := h c₁ hmid
  exact ⟨behind, hbehind, hordinals'.trans hordinals, (perform_bind hperform).trans heq⟩

/-- Behind either, the assignments are read. -/
theorem resumes_conflictClause {head rest : List Token} (hhead : head ∈ upsertHeads)
    (hconflict : around.version.dialect.onConflict = true)
    (hduplicate : around.version.dialect.onDuplicateKeyUpdate = true) (hi : i.conflictTarget = []) :
    Resumes around (conflictClause g i) (head ++ rest)
      ((fun written => { i with assignments := Assignment.settled written }) <$>
        writtenAssignments g) rest := by
  have hend : Resumes around
      (do pure { i with conflictTarget := [], assignments := ← upsertAssignments g }) rest
      ((fun written => { i with assignments := Assignment.settled written }) <$>
        writtenAssignments g) rest := by
    rw [upsertAssignments_eq, bind_pure_comp, Functor.map_map, ← hi]
    exact resumes_self
  simp only [upsertHeads, List.mem_cons, List.not_mem_nil, or_false] at hhead
  rcases hhead with rfl | rfl
  · have htarget {tokens : List Token} :
        Takes around columnList? (.keyword .DO :: tokens) none (.keyword .DO :: tokens) :=
      takes_bind takes_peek takes_pure
    refine Resumes.after (Resumes.after ?_ takes_next) takes_accept
    refine Resumes.after (Resumes.after ?_ htarget) (takes_require hconflict _ _)
    refine Resumes.after (Resumes.after ?_ (takes_accept_false (by simp))) takes_expect
    exact Resumes.after (Resumes.after hend takes_expect) takes_expect
  · refine Resumes.after (Resumes.after ?_ takes_next) takes_accept
    refine Resumes.after ?_ (takes_require hduplicate _ _)
    rw [← hi] at hend
    exact Resumes.after (Resumes.after hend takes_expect) takes_expect

/-- Without either, nothing is changed in the row in the way. -/
theorem perform_conflictClause_plain (hg : MakesWellFormed g) (hupsert : around.upsert = false)
    (h : (conflictClause g i).perform around c = .ok (i', d)) (hplain : i'.isUpsert = false)
    (hignore : i'.ignoreConflicts = false) : d = c ∧ i' = i := by
  have hupserts {f : List Assignment → Insert} (hf : ∀ written, (f written).assignments = written) :
      Makes false (do pure (f (← upsertAssignments g))) fun i =>
        i.isUpsert = true ∨ i.ignoreConflicts = true := by
    refine (makes_upsertAssignments hg).bind fun assigned hassigned => makes_pure (.inl ?_)
    unfold Insert.isUpsert
    rw [hf, List.isEmpty_eq_false_iff.mpr hassigned.nonempty]
    rfl
  obtain ⟨taken, c₁, haccept, hrest⟩ := perform_bind_eq_ok.mp h
  rcases perform_accept haccept with ⟨rfl, -⟩ | ⟨rfl, -, rfl⟩
  · have hchanged : i'.isUpsert = true ∨ i'.ignoreConflicts = true := by
      refine (?_ : Makes false _ fun i => i.isUpsert = true ∨ i.ignoreConflicts = true) around c₁
        i' d hupsert hrest |>.1
      refine moves_next.then fun t => ?_
      split
      · refine moves_require.then fun _ => moves_columnList.then fun target => ?_
        refine moves_expect.then fun _ => moves_accept.then fun _ => .ite (fun _ => ?_) fun _ => ?_
        · exact makes_pure (.inr rfl)
        · exact moves_expect.then fun _ => moves_expect.then fun _ => hupserts fun _ => rfl
      · refine moves_require.then fun _ => moves_expect.then fun _ => moves_expect.then fun _ => ?_
        exact hupserts fun _ => rfl
      · exact makes_fault
    rw [hplain, hignore] at hchanged
    exact absurd hchanged (by simp)
  · cases hrest
    exact ⟨rfl, rfl⟩

-- ============================================================== upserts

variable {body tail tokens tokens' : List Token} {size : Nat} {s : Statement}

/-- An INSERT that is a whole text and no upsert is an insertion. -/
theorem perform_insertion_of_readAs (hbody : Statement.ReadAs wholeStatement v body (.insert i))
    (hplain : i.isUpsert = false) (hignore : i.ignoreConflicts = false)
    (hlast : body.getLast? ≠ some (.sign .semicolon)) :
    body.head? = some (.keyword .INSERT) ∧ ∃ c d : Cursor, c.tokens = body ∧ c.ordinals = 0 ∧
      (insertion (ofDepth (body.length + 1))).perform
        { version := v, failure := none, size := 0 } c = .ok (i, d) ∧ d.tokens = [] := by
  obtain ⟨c, d, rfl, hordinals, hstatement, hend⟩ := perform_statement_of_readAs hbody hlast
  obtain ⟨word, hword, hhead⟩ := opens_statement hstatement
  obtain rfl := List.mem_singleton.mp hword
  rw [perform_statement_insert rfl hhead, insert_eq] at hstatement
  obtain ⟨i', c₁, hinsertion, hrest⟩ := perform_bind_eq_ok.mp hstatement
  obtain ⟨i'', hconflict, heq⟩ := Copy.perform_map_eq_ok.mp hrest
  cases heq
  obtain ⟨rfl, rfl⟩ := perform_conflictClause_plain (makesWellFormed_ofDepth _) rfl hconflict hplain
    hignore
  exact ⟨hhead, c, d, rfl, hordinals, hinsertion, hend⟩

/-- In front of ON it is read as it is on its own. -/
theorem reaches_insertion (hhints : v.dialect.hints ≠ .table)
    (htail : tail.head? = some (.keyword .ON)) {c d c' : Cursor} (hc : c.tokens = body)
    (hc' : c'.tokens = body ++ tail) (hordinals : c'.ordinals = c.ordinals)
    (h : (insertion (ofDepth (body.length + 1))).perform
      { version := v, failure := none, size := 0 } c = .ok (i, d)) (hend : d.tokens = []) :
    ∃ d', (insertion (ofDepth ((body ++ tail).length + 1))).perform
      { version := v, failure := none, size } c' = .ok (i, d') ∧ d'.tokens = tail ∧
        d'.ordinals = d.ordinals := by
  have hhead : ∀ t, tail.head? = some t → t = .keyword .ON :=
    fun t ht => (Option.some.inj (htail.symm.trans ht)).symm
  let k := goesOn v hhints size 0 tail fun t ht => hhead t ht ▸ by decide
  have hsynced : k.Synced c c' := synced_append (hc ▸ hc') hordinals (.inl rfl)
  have hends : k.Ends [.keyword .ON] := ⟨rfl, fun t ht => List.mem_singleton.mpr (hhead t ht)⟩
  have hfollows := follows_insertion hends
    (followsGrammar_ofDepth (body.length + 1) ((body ++ tail).length + 1))
    (follows_selectWith (followsGrammar_ofDepth body.length (body ++ tail).length) (.inr hends))
  exact hfollows.keeps_end (hc' ▸ Nat.lt_succ_self _) hsynced h hend

/-- The assignments are the same in another spelling, up to the same
end. -/
theorem reaches_writtenAssignments (hhints : v.dialect.hints ≠ .table)
    (hspells : ∀ k : Respelling, k.proposes = true → k.tail = [] → k.Spells tokens tokens')
    {depth depth' : Nat} (hdepth : tokens'.length < depth') {c d c' : Cursor}
    (hc : c.tokens = tokens) (hc' : c'.tokens = tokens') (hordinals : c'.ordinals = c.ordinals)
    {written : List Assignment}
    (h : (writtenAssignments (ofDepth depth)).perform
      { version := v, failure := none, size := 0 } c = .ok (written, d))
    (hend : d.tokens = [] ∨ d.tokens = [Token.sign .semicolon]) :
    ∃ d', (writtenAssignments (ofDepth depth')).perform { version := v, failure := none, size } c' =
      .ok (written, d') ∧ (d'.tokens = [] ∨ d'.tokens = [Token.sign .semicolon]) := by
  let k : Respelling := {
    around := { version := v, failure := none, size := 0, upsert := true }
    size, tail := [], proposes := true, ahead := 0, complete := rfl, upserts := fun _ => rfl
    hints := hhints, ends := nofun }
  have hsynced : k.Synced c c' := {
    spells := by
      rw [hc, hc']
      exact hspells k rfl rfl
    ordinals := hordinals
    counted := .inl rfl }
  have hcomma : ¬k.Parting (.sign .comma) := by
    rintro (hhead | ⟨-, heq⟩)
    · cases hhead
    · cases heq
  have hfollows := follows_writtenAssignments rfl hcomma (followsGrammar_ofDepth depth depth')
  rcases hfollows.keeps (hc' ▸ hdepth) hsynced h with ⟨d', hd', hadvances⟩ | ⟨hdead, -⟩
  · refine ⟨d', hd', ?_⟩
    have hleft := hadvances.synced.spells
    rcases hend with hend | hend
    · rw [hend] at hleft
      exact .inl hleft.eq_tail
    · rw [hend] at hleft
      obtain ⟨rest, hrest, hbehind⟩ := hleft.cons nofun
      rw [hrest, hbehind.eq_tail]
      exact .inr rfl
  · cases hdead

theorem head_upsertHeads {head : List Token} (h : head ∈ upsertHeads) (rest : List Token) :
    (head ++ rest).head? = some (.keyword .ON) := by
  simp only [upsertHeads, List.mem_cons, List.not_mem_nil, or_false] at h
  rcases h with rfl | rfl <;> rfl

end Grammar

-- =============================================================== pieces

/-- A piece of upsert assignments: a token, or a column of the row that
was to be inserted. -/
inductive UpsertPiece
  | token (t : Token)
  | proposed (column : Token)

namespace UpsertPiece

/-- The piece with `VALUES(c)` for the column. -/
def values : UpsertPiece → List Token
  | .token t => [t]
  | .proposed column => [.keyword .VALUES, .sign .openParen, column, .sign .closeParen]

/-- The piece with `excluded.c` for the column. -/
def excluded : UpsertPiece → List Token
  | .token t => [t]
  | .proposed column => [.ident "excluded", .sign .period, column]

theorem spells {k : Respelling} (hproposes : k.proposes = true) (htail : k.tail = [])
    (pieces : List UpsertPiece) : k.Spells (pieces.flatMap values) (pieces.flatMap excluded) := by
  induction pieces with
  | nil =>
      have hstop : k.Spells [] k.tail := .stop
      rwa [htail] at hstop
  | cons piece pieces ih =>
      cases piece with
      | token t => exact .same t ih
      | proposed column => exact .proposed hproposes column ih

end UpsertPiece

-- ============================================================ statements

namespace Statement

/-- An upsert is read as its INSERT with the assignments that are written
in it, once they are settled, and with either head and either spelling of
the row that was to be inserted these are the same. -/
theorem readAs_upsert {v : DialectVersion} {body head tokens : List Token} {i : Insert}
    {s : Statement} (hhints : v.dialect.hints ≠ .table) (hconflict : v.dialect.onConflict = true)
    (hduplicate : v.dialect.onDuplicateKeyUpdate = true)
    (hbody : ReadAs Grammar.wholeStatement v body (.insert i)) (hplain : i.isUpsert = false)
    (hignore : i.ignoreConflicts = false) (hlast : body.getLast? ≠ some (.sign .semicolon))
    (hhead : head ∈ Grammar.upsertHeads)
    (h : ReadAs Grammar.wholeStatement v (body ++ head ++ tokens) s) :
    ∃ written, s = .insert { i with assignments := Assignment.settled written } ∧
      ∀ head' ∈ Grammar.upsertHeads, ∀ tokens',
        (∀ k : Respelling, k.proposes = true → k.tail = [] → k.Spells tokens tokens') →
        ReadAs Grammar.writtenUpsert v (body ++ head' ++ tokens') (i, written) ∧
          ReadAs Grammar.wholeStatement v (body ++ head' ++ tokens') s := by
  obtain ⟨hopens, c, d, hc, hordinals, hinsertion, hend⟩ :=
    Grammar.perform_insertion_of_readAs hbody hplain hignore hlast
  have hi : i.conflictTarget = [] := Grammar.yields_insertion _ _ _ _ _ hinsertion
  have hinsert (rest : List Token) : (body ++ rest).head? = some (.keyword .INSERT) := by
    rw [List.head?_append, hopens]
    rfl
  have hresumes {size depth : Nat} {head rest : List Token} (hhead : head ∈ Grammar.upsertHeads) :
      Grammar.Resumes { version := v, failure := none, size }
        (Grammar.conflictClause (Grammar.ofDepth depth) i) (head ++ rest)
        ((fun written => { i with assignments := Assignment.settled written }) <$>
          Grammar.writtenAssignments (Grammar.ofDepth depth)) rest :=
    Grammar.resumes_conflictClause hhead hconflict hduplicate hi
  -- What the given spelling is read as tells the assignments.
  rw [List.append_assoc] at h
  obtain ⟨c₁, _, hc₁, hordinals₁, hperform⟩ := h.perform
  obtain ⟨-, d₁, hstatement, hleft⟩ := Grammar.perform_wholeStatement hperform
  obtain ⟨d₂, hinsertion₂, htokens₂, hordinals₂⟩ := Grammar.reaches_insertion hhints
    (Grammar.head_upsertHeads hhead tokens) hc hc₁ (hordinals₁.trans hordinals.symm) hinsertion hend
  rw [Grammar.perform_statement_insert rfl (hc₁ ▸ hinsert _), Grammar.insert_eq,
    perform_bind hinsertion₂] at hstatement
  obtain ⟨i', hclause, rfl⟩ := Copy.perform_map_eq_ok.mp hstatement
  obtain ⟨c₃, hc₃, hordinals₃, heq⟩ := hresumes hhead d₂ htokens₂
  rw [heq] at hclause
  obtain ⟨written, hwritten, rfl⟩ := Copy.perform_map_eq_ok.mp hclause
  refine ⟨written, rfl, fun head' hhead' tokens' hspells => ?_⟩
  rw [List.append_assoc]
  have hreaches {size : Nat} {c' : Cursor} (hc' : c'.tokens = body ++ (head' ++ tokens'))
      (hordinals' : c'.ordinals = 0) :
      ∃ d', (Grammar.insertion (Grammar.ofDepth ((body ++ (head' ++ tokens')).length + 1))).perform
        { version := v, failure := none, size } c' = .ok (i, d') ∧ d'.tokens = head' ++ tokens' ∧
          d'.ordinals = d.ordinals :=
    Grammar.reaches_insertion hhints (Grammar.head_upsertHeads hhead' tokens') hc hc'
      (hordinals'.trans hordinals.symm) hinsertion hend
  have hassigned {size : Nat} {c' : Cursor} (hc' : c'.tokens = tokens')
      (hordinals' : c'.ordinals = d.ordinals) :
      ∃ d', (Grammar.writtenAssignments (Grammar.ofDepth
        ((body ++ (head' ++ tokens')).length + 1))).perform
          { version := v, failure := none, size } c' = .ok (written, d') ∧
            (d'.tokens = [] ∨ d'.tokens = [Token.sign .semicolon]) := by
    refine Grammar.reaches_writtenAssignments hhints hspells ?_ hc₃ hc' ?_ hwritten hleft
    · simp only [List.length_append]
      omega
    · rw [hordinals', hordinals₃, hordinals₂]
  constructor
  · refine readAs_of_perform fun size c' hc' hordinals' => ?_
    obtain ⟨d', hd', htokens', hcount⟩ := hreaches hc' hordinals'
    obtain ⟨e, he, htokens, hcount'⟩ := Grammar.takes_upsertHead hhead' tokens' d' htokens'
    obtain ⟨f, hf, -⟩ := hassigned htokens (hcount'.trans hcount)
    exact ⟨f, perform_bind_eq_ok.mpr ⟨i, d', hd', perform_bind_eq_ok.mpr ⟨(), e, he,
      perform_bind_eq_ok.mpr ⟨written, f, hf, rfl⟩⟩⟩⟩
  · refine readAs_of_perform fun size c' hc' hordinals' => ?_
    obtain ⟨d', hd', htokens', hcount⟩ := hreaches hc' hordinals'
    obtain ⟨e, htokens, hcount', heq⟩ := hresumes hhead' d' htokens'
    obtain ⟨f, hf, hleft'⟩ := hassigned htokens (hcount'.trans hcount)
    refine Grammar.perform_wholeStatement_of ?_ rfl hleft'
    rw [Grammar.perform_statement_insert rfl (hc' ▸ hinsert _), Grammar.insert_eq, perform_bind hd']
    refine Copy.perform_map_eq_ok.mpr ⟨_, ?_, rfl⟩
    rw [heq]
    exact Copy.perform_map_eq_ok.mpr ⟨written, hf, rfl⟩

end Statement

end DialectDb
