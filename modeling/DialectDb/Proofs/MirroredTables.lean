/-
CREATE TABLE in a text with placeholders and in its copy with values.

NULL stands for more than a value here: it is a constraint of a column as
well. Where the text has a placeholder behind a column, the copy may go
on with the column, and the text cannot be read. So a reader of columns
is mirrored unless it stops at a placeholder (`MirrorsBefore`), and
behind the columns a comma or a parenthesis is wanted.
-/
import DialectDb.Grammar.Statement
import DialectDb.Proofs.MirroredQueries

namespace DialectDb.Copy

open Token DialectDb.Parser DialectDb.Grammar

variable {k : Copy} {g : Grammar} {α β : Type}

-- ================================================= up to a placeholder

/-- The next token, if there is one, is no placeholder. -/
def PlainAhead (tokens : List Token) : Prop :=
  ∀ t, tokens.head? = some t → ¬t.isPlaceholder

/-- A reader of the copy mirrors one of the text unless that one stops at
a placeholder. -/
def MirrorsBefore (k : Copy) (x x' : Parser α) (R : α → α → Prop) : Prop :=
  ∀ c c' a d, Unannounced c.tokens → fill? k.parameters c.ordinals c.tokens = some c'.tokens →
    x.perform k.around c = .ok (a, d) → PlainAhead d.tokens →
    ∃ a' d', x'.perform k.surroundings c' = .ok (a', d') ∧ R a a' ∧ Unannounced d.tokens ∧
      fill? k.parameters d.ordinals d.tokens = some d'.tokens

variable {x x' : Parser α} {f f' : α → Parser β} {R : α → α → Prop} {S : β → β → Prop}

theorem not_plainAhead {tokens : List Token} (h : ¬PlainAhead tokens) :
    ∃ t, tokens.head? = some t ∧ t.isPlaceholder := by
  unfold PlainAhead at h
  push Not at h
  exact h

theorem Mirrors.before (h : k.Mirrors x x' R) : k.MirrorsBefore x x' R :=
  fun c c' a d hc hfill hperform _ => h c c' a d hc hfill hperform

theorem Mirrors.bind_before (hx : k.Mirrors x x' R)
    (hf : ∀ a a', R a a' → k.MirrorsBefore (f a) (f' a') S) :
    k.MirrorsBefore (x >>= f) (x' >>= f') S := by
  intro c c' b d hc hfill hperform hahead
  obtain ⟨a, c₁, hx₁, hf₁⟩ := perform_bind_eq_ok.mp hperform
  obtain ⟨a', c₁', hx₁', ha, hc₁, hfill₁⟩ := hx c c' a c₁ hc hfill hx₁
  obtain ⟨b', d', hf₁', hb⟩ := hf a a' ha c₁ c₁' b d hc₁ hfill₁ hf₁ hahead
  exact ⟨b', d', perform_bind_eq_ok.mpr ⟨a', c₁', hx₁', hf₁'⟩, hb⟩

/-- What follows a reader does not go on at a placeholder. -/
theorem MirrorsBefore.bind_before (hx : k.MirrorsBefore x x' R)
    (hf : ∀ a a', R a a' → k.MirrorsBefore (f a) (f' a') S)
    (hahead : ∀ a c b d, (f a).perform k.around c = .ok (b, d) → PlainAhead d.tokens →
      PlainAhead c.tokens) :
    k.MirrorsBefore (x >>= f) (x' >>= f') S := by
  intro c c' b d hc hfill hperform hd
  obtain ⟨a, c₁, hx₁, hf₁⟩ := perform_bind_eq_ok.mp hperform
  have hc₁ := hahead a c₁ b d hf₁ hd
  obtain ⟨a', c₁', hx₁', ha, hunannounced, hfill₁⟩ := hx c c' a c₁ hc hfill hx₁ hc₁
  obtain ⟨b', d', hf₁', hb⟩ := hf a a' ha c₁ c₁' b d hunannounced hfill₁ hf₁ hd
  exact ⟨b', d', perform_bind_eq_ok.mpr ⟨a', c₁', hx₁', hf₁'⟩, hb⟩

/-- Where a token is expected, no placeholder stands. -/
theorem plainAhead_of_expect {t : Token} (ht : ¬t.isPlaceholder) {around : Surroundings}
    {c d : Cursor} {u : Unit} (h : (expect t).perform around c = .ok (u, d)) :
    PlainAhead c.tokens := by
  obtain ⟨found, c₁, hnext, hrest⟩ := perform_bind_eq_ok.mp h
  obtain ⟨htokens, -⟩ := perform_next_eq_ok hnext
  rw [htokens]
  rintro _ ⟨⟩
  by_cases hfound : found = t
  · rw [hfound]
    exact ht
  · rw [if_neg hfound] at hrest
    obtain ⟨e, he⟩ := fails_fault (α := Unit) (.expectedToken t found) around c₁
    rw [he] at hrest
    cases hrest

/-- What is between parentheses is read to the closing one. -/
theorem MirrorsBefore.parenthesized (hx : k.MirrorsBefore x x' R) :
    k.Mirrors (Parser.parenthesized x) (Parser.parenthesized x') R := by
  refine .then (mirrors_expect rfl) fun _ => ?_
  intro c c' b d hc hfill hperform
  obtain ⟨a, c₁, hx₁, hclose⟩ := perform_bind_eq_ok.mp hperform
  obtain ⟨u, c₂, hexpect, -⟩ := perform_bind_eq_ok.mp hclose
  have hc₁ : PlainAhead c₁.tokens :=
    plainAhead_of_expect (t := .sign .closeParen) Bool.false_ne_true hexpect
  obtain ⟨a', c₁', hx₁', ha, hunannounced, hfill₁⟩ := hx c c' a c₁ hc hfill hx₁ hc₁
  have hend : k.Mirrors (do expect Sign.closeParen; pure a) (do expect Sign.closeParen; pure a') R :=
    .then (mirrors_expect rfl) fun _ => mirrors_pure ha
  obtain ⟨b', d', hclose', hb⟩ := hend c₁ c₁' b d hunannounced hfill₁ hclose
  exact ⟨b', d', perform_bind_eq_ok.mpr ⟨a', c₁', hx₁', hclose'⟩, hb⟩

-- ========================================================== repetition

/-- At a placeholder a round declines. -/
def Declines (around : Surroundings) (step : α → Parser (Option α)) : Prop :=
  ∀ a c o d, ¬PlainAhead c.tokens → (step a).perform around c = .ok (o, d) → o = none ∧ d = c

/-- A repetition that does not stop at a placeholder does not begin at
one. -/
theorem Declines.plainAhead {step : α → Parser (Option α)} (hstep : Declines k.around step)
    (count : Nat) {a b : α} {c d : Cursor}
    (h : (iterateWithin step count a).perform k.around c = .ok (b, d))
    (hd : PlainAhead d.tokens) : PlainAhead c.tokens := by
  by_contra hc
  cases count with
  | zero =>
      cases h
      exact hc hd
  | succ count =>
      obtain ⟨o, c₁, hstep₁, hrest⟩ := perform_bind_eq_ok.mp h
      obtain ⟨rfl, rfl⟩ := hstep a c o c₁ hc hstep₁
      cases hrest
      exact hc hd

theorem mirrorsBefore_iterateWithin {step step' : α → Parser (Option α)}
    (hdeclines : Declines k.around step)
    (hstep : ∀ a a', R a a' → k.MirrorsBefore (step a) (step' a') (Option.Rel R)) (count : Nat)
    {a a' : α} (ha : R a a') :
    k.MirrorsBefore (iterateWithin step count a) (iterateWithin step' count a') R := by
  induction count generalizing a a' with
  | zero => exact (mirrors_pure ha).before
  | succ count ih =>
      refine (hstep a a' ha).bind_before (fun o o' ho => ?_) fun o c b d hrest hd => ?_
      · cases ho with
        | none => exact (mirrors_pure ha).before
        | some hb => exact ih hb
      · cases o with
        | none =>
            cases hrest
            exact hd
        | some b => exact hdeclines.plainAhead count hrest hd

theorem mirrorsBefore_iterate {step step' : α → Parser (Option α)}
    (hdeclines : Declines k.around step)
    (hstep : ∀ a a', R a a' → k.MirrorsBefore (step a) (step' a') (Option.Rel R)) {a a' : α}
    (ha : R a a') : k.MirrorsBefore (iterate step a) (iterate step' a') R := by
  intro c c' b d hc hfill hperform hd
  have hboth := mirrorsBefore_iterateWithin hdeclines hstep (c.lexemes.length + 1) ha c c' b d hc
    hfill hperform hd
  rw [← length_lexemes hfill] at hboth
  exact hboth

/-- A comma and an item behind it are taken, if they are there. -/
private def furtherItem? (item : α → Parser α) (a : α) : Parser (Option α) := do
  if ← accept Sign.comma then some <$> item a else pure none

theorem mirrorsBefore_commaFold {item item' : α → Parser α}
    (hitem : ∀ a a', R a a' → k.MirrorsBefore (item a) (item' a') R) {a a' : α} (ha : R a a') :
    k.MirrorsBefore (commaFold item a) (commaFold item' a') R := by
  have hdeclines : Declines k.around (furtherItem? item) := by
    intro a c o d hc hperform
    obtain ⟨t, hhead, ht⟩ := not_plainAhead hc
    have hcomma : (accept Sign.comma).perform k.around c = .ok (false, c) := by
      unfold accept
      rw [perform_bind (perform_nextMap_declines fun u hu => if_neg ?_)]
      · rfl
      · rintro rfl
        rw [hhead] at hu
        cases hu
        cases ht
    unfold furtherItem? at hperform
    rw [perform_bind hcomma] at hperform
    cases hperform
    exact ⟨rfl, rfl⟩
  refine (hitem a a' ha).bind_before (fun b b' hb => ?_)
    fun b c _ d hrest hd => hdeclines.plainAhead (c.lexemes.length + 1) hrest hd
  refine mirrorsBefore_iterate hdeclines (fun b b' hb => ?_) hb
  refine Mirrors.bind_before (mirrors_accept rfl) fun taken _ heq => ?_
  subst heq
  cases taken with
  | false => exact (mirrors_pure .none).before
  | true =>
      intro c c' o d hc hfill hperform hd
      obtain ⟨b₁, hb₁, rfl⟩ := perform_map_eq_ok.mp hperform
      obtain ⟨b₁', d', hperform', hb', hrest⟩ := hitem b b' hb c c' b₁ d hc hfill hb₁ hd
      exact ⟨some b₁', d', perform_map_eq_ok.mpr ⟨b₁', hperform', rfl⟩, .some hb', hrest⟩

-- ============================================================== columns

/-- The column of the copy is the one of the text, bound. -/
abbrev BindsColumn (k : Copy) : ColumnDefinition → ColumnDefinition → Prop :=
  Gives (ColumnDefinition.bind k.parameters)

/-- Binding a column changes its default and nothing else. -/
theorem bindsColumn_iff {column column' : ColumnDefinition} :
    k.BindsColumn column column' ↔
      ∃ default, Option.Rel k.Binds column.default default ∧
        { column with default } = column' := by
  show ColumnDefinition.bind k.parameters column = .ok column' ↔ _
  unfold ColumnDefinition.bind
  simp only [Result.bind_eq_ok, Expr.bindOption_eq_ok, Result.pure_eq_ok]

/-- The constraints of a table mark columns, whatever their defaults. -/
def MarksColumns (k : Copy) (mark : ColumnDefinition → ColumnDefinition) : Prop :=
  ∀ {column column' : ColumnDefinition}, k.BindsColumn column column' →
    k.BindsColumn (mark column) (mark column')

theorem marksColumns_primaryKey : k.MarksColumns ({ · with primaryKey := true }) := by
  intro column column' h
  obtain ⟨default, hdefault, rfl⟩ := bindsColumn_iff.mp h
  exact bindsColumn_iff.mpr ⟨default, hdefault, rfl⟩

theorem marksColumns_unique : k.MarksColumns ({ · with unique := true }) := by
  intro column column' h
  obtain ⟨default, hdefault, rfl⟩ := bindsColumn_iff.mp h
  exact bindsColumn_iff.mpr ⟨default, hdefault, rfl⟩

theorem rel_markColumn {mark : ColumnDefinition → ColumnDefinition} (hmark : k.MarksColumns mark)
    (key : String) {columns columns' : List ColumnDefinition}
    (h : List.Forall₂ k.BindsColumn columns columns') :
    Option.Rel (List.Forall₂ k.BindsColumn) (markColumn? mark key columns)
      (markColumn? mark key columns') := by
  induction h with
  | nil => exact .none
  | @cons column column' rest rest' hcolumn hrest ih =>
      obtain ⟨default, -, heq⟩ := bindsColumn_iff.mp hcolumn
      have hname : column'.name = column.name := heq ▸ rfl
      unfold markColumn?
      rw [hname]
      split
      · exact .some (.cons (hmark hcolumn) hrest)
      · generalize markColumn? mark key rest = marked at ih ⊢
        generalize markColumn? mark key rest' = marked' at ih ⊢
        cases ih with
        | none => exact .none
        | some ih => exact .some (.cons hcolumn ih)

theorem mirrors_tableConstraint {mark : ColumnDefinition → ColumnDefinition}
    (hmark : k.MarksColumns mark) (unknown : String → Malformed)
    {columns columns' : List ColumnDefinition}
    (h : List.Forall₂ k.BindsColumn columns columns') :
    k.Mirrors (tableConstraint mark unknown columns) (tableConstraint mark unknown columns')
      (List.Forall₂ k.BindsColumn) := by
  refine .then mirrors_identifierList fun keys => mirrors_foldlM (fun columns columns' key h => ?_) h
  have hrel := rel_markColumn hmark key h
  generalize markColumn? mark key columns = marked at hrel ⊢
  generalize markColumn? mark key columns' = marked' at hrel ⊢
  cases hrel with
  | none => exact .of_fails (fails_fault _)
  | some h => exact mirrors_pure h

theorem mirrors_typeArguments : k.Mirrors typeArguments typeArguments Eq := by
  refine .then (mirrors_accept rfl) fun _ => .ite (fun _ => ?_) fun _ => mirrors_pure rfl
  refine .then (mirrors_commaList_eq ?_) fun _ => mirrors_expect rfl
  refine mirrors_next (fun t => ?_) (fun _ => fails_fault _) (fails_fault _) (fails_fault _)
  split
  · exact mirrors_pure rfl
  · exact .of_fails (fails_fault _)

theorem mirrors_setNullable {column column' : ColumnDefinition} (h : k.BindsColumn column column')
    (nullable : Bool) :
    k.Mirrors (setNullable column nullable) (setNullable column' nullable) k.BindsColumn := by
  obtain ⟨default, hdefault, rfl⟩ := bindsColumn_iff.mp h
  refine .ite (fun _ => .of_fails (fails_fault _)) fun _ => mirrors_pure ?_
  exact bindsColumn_iff.mpr ⟨default, hdefault, rfl⟩

/-- A placeholder is no constraint. -/
theorem declines_columnConstraint : Declines k.around (columnConstraint? g) := by
  intro column c o d hc hperform
  obtain ⟨t, hhead, ht⟩ := not_plainAhead hc
  unfold columnConstraint? at hperform
  rw [perform_bind (perform_nextMap_declines fun u hu => ?_)] at hperform
  · cases hperform
    exact ⟨rfl, rfl⟩
  · rw [hhead] at hu
    cases hu
    unfold isPlaceholder at ht
    split at ht
    · rfl
    · rfl
    · cases ht

variable (hg : MirrorsGrammar g)
include hg

/-- Where no placeholder follows, the same constraint follows in both. -/
theorem mirrorsFrom_columnConstraint {column column' : ColumnDefinition}
    (h : k.BindsColumn column column') :
    k.MirrorsFrom (fun tokens => Unannounced tokens ∧ PlainAhead tokens)
      (columnConstraint? g column) (columnConstraint? g column') (Option.Rel k.BindsColumn)
      fun _ => Unannounced := by
  obtain ⟨default, hdefault, rfl⟩ := bindsColumn_iff.mp h
  refine .then (mirrorsFrom_nextMap (Q := fun _ => Unannounced) (fun t tokens ht hahead => ?_)
    (fun t word tokens hword hahead => ?_) fun _ => And.left) fun word? => ?_
  · exact absurd ht (hahead.2 t rfl)
  · refine hahead.1.announced.tail_unannounced ?_
    rintro rfl
    cases hword
  · split
    · exact mirrors_pure .none
    · refine .then (mirrors_expect rfl) fun _ => mirrors_pure (.some ?_)
      exact bindsColumn_iff.mpr ⟨default, hdefault, rfl⟩
    · exact (mirrors_setNullable h true).map fun _ _ => .some
    · refine .then mirrors_expect_null fun _ => ?_
      exact (mirrors_setNullable h false).map fun _ _ => .some
    · refine .bind (hg.expression k 0) fun e e' he => mirrors_pure (.some ?_)
      exact bindsColumn_iff.mpr ⟨some e', .some he, rfl⟩
    · exact mirrors_pure (.some (bindsColumn_iff.mpr ⟨default, hdefault, rfl⟩))
    · exact .of_fails (fails_fault _)

theorem mirrorsBefore_columnConstraint {column column' : ColumnDefinition}
    (h : k.BindsColumn column column') :
    k.MirrorsBefore (columnConstraint? g column) (columnConstraint? g column')
      (Option.Rel k.BindsColumn) := by
  intro c c' o d hc hfill hperform hd
  by_cases hahead : PlainAhead c.tokens
  · exact mirrorsFrom_columnConstraint hg h c c' o d ⟨hc, hahead⟩ hfill hperform
  · obtain ⟨-, rfl⟩ := declines_columnConstraint column c o d hahead hperform
    exact absurd hd hahead

theorem mirrorsBefore_columnDefinition :
    k.MirrorsBefore (columnDefinition g) (columnDefinition g) k.BindsColumn := by
  refine Mirrors.bind_before mirrors_identifier fun name _ hname => ?_
  subst hname
  refine Mirrors.bind_before mirrors_identifier fun typeName _ htype => ?_
  subst htype
  cases DataType.ofName? typeName with
  | none => exact Mirrors.before (.of_fails (fails_fault _))
  | some type =>
      refine Mirrors.bind_before mirrors_typeArguments fun _ _ _ => ?_
      exact mirrorsBefore_iterate declines_columnConstraint
        (fun _ _ => mirrorsBefore_columnConstraint hg) rfl

theorem mirrorsBefore_tableElement {columns columns' : List ColumnDefinition}
    (h : List.Forall₂ k.BindsColumn columns columns') :
    k.MirrorsBefore (tableElement g columns) (tableElement g columns')
      (List.Forall₂ k.BindsColumn) := by
  have hcolumn : k.MirrorsBefore (do pure (columns ++ [← columnDefinition g]))
      (do pure (columns' ++ [← columnDefinition g])) (List.Forall₂ k.BindsColumn) := by
    refine (mirrorsBefore_columnDefinition hg).bind_before (fun column column' hcolumn => ?_)
      fun column c b d hrest hd => ?_
    · exact (mirrors_pure (List.rel_append h (.cons hcolumn .nil))).before
    · cases hrest
      exact hd
  intro c c' b d hc hfill hperform hd
  obtain ⟨o, c₁, hpeek, hrest⟩ := perform_bind_eq_ok.mp hperform
  have hpeek' := perform_peek_copy hfill hpeek
  obtain ⟨ho, rfl, -⟩ := perform_peek_eq_ok.mp hpeek
  unfold tableElement
  rw [perform_bind hpeek']
  rcases seen_head hfill with hsame | ⟨t, u, ht, hu, hplaceholder, hvalue⟩
  · rw [hsame, ← ho]
    split at hrest
    · refine mirrors_next_head rfl ?_ c₁ c' b d ⟨hc, ho.symm⟩ hfill hrest
      refine .then (mirrors_expect rfl) fun _ => ?_
      exact mirrors_tableConstraint marksColumns_primaryKey _ h
    · refine mirrors_next_head rfl ?_ c₁ c' b d ⟨hc, ho.symm⟩ hfill hrest
      exact mirrors_tableConstraint marksColumns_unique _ h
    · exact hcolumn c₁ c' b d hc hfill hrest hd
  · rw [ho, ht] at hrest
    rw [hu]
    have hplain : (columnDefinition g >>= fun column => pure (columns ++ [column])).perform
        k.around c₁ = .ok (b, d) := by
      cases t, isValue_of_isPlaceholder hplaceholder using isValue_cases <;> exact hrest
    obtain ⟨b', d', hperform', hb⟩ := hcolumn c₁ c' b d hc hfill hplain hd
    refine ⟨b', d', ?_, hb⟩
    cases u, hvalue using isValue_cases <;> exact hperform'

/-- CREATE TABLE is read from the copy as from the text. The name behind
it opens no query hints. -/
theorem mirrorsFrom_createTable :
    k.MirrorsFrom (queryHintsPlain ·) (createTable g) (createTable g)
      (Gives (Statement.bind k.parameters)) fun _ => Unannounced := by
  refine .then (mirrorsFrom_expect Bool.false_ne_true) fun _ => ?_
  refine .then (mirrorsFrom_expect Bool.false_ne_true) fun _ => ?_
  refine .then mirrorsFrom_tableName fun name => ?_
  have hcolumns : k.Mirrors (parenthesized (commaFold (tableElement g) []))
      (parenthesized (commaFold (tableElement g) [])) (List.Forall₂ k.BindsColumn) :=
    (mirrorsBefore_commaFold (fun _ _ => mirrorsBefore_tableElement hg) .nil).parenthesized
  refine .bind hcolumns fun columns columns' h => mirrors_pure ?_
  exact Result.bind_eq_ok.mpr ⟨columns', Result.mapM_eq_ok.mpr h, rfl⟩

end DialectDb.Copy
