/-
A construct that the dialect version lacks is refused where it is met,
and nowhere is it read as something else. So there are two things to say
of a reader that succeeds under a dialect version: what it has read uses
only what the version has, and under a version that has more it would
have read the same (`Gated`).

Both follow from a rule for each reader of `Grammar.Parser` and for each
way to put readers together. Almost all readers never look at the
version. Of those that do, `require` is the one that counts, since it
only goes on if the version has a construct; it is where a property of
the result can come from.
-/
import DialectDb.Proofs.Reading

namespace DialectDb

-- ============================================================= versions

/-- A dialect version that cuts texts into the same tokens as another,
and has every construct that the other has. It may only ask for ORDER BY
with paging if the other does. -/
structure DialectVersion.Covers (w v : DialectVersion) : Prop where
  lexical : w.dialect.lexical = v.dialect.lexical
  paging : v.supportsPaging = true → w.supportsPaging = true
  fetchFirst : v.supportsFetchFirst = true → w.supportsFetchFirst = true
  limitOffset : v.dialect.limitOffset = true → w.dialect.limitOffset = true
  top : v.dialect.top = true → w.dialect.top = true
  cte : v.supportsCte = true → w.supportsCte = true
  recursiveCte : v.supportsRecursiveCte = true → w.supportsRecursiveCte = true
  merge : v.supportsMerge = true → w.supportsMerge = true
  materializedHint : v.dialect.materializedHint = true → w.dialect.materializedHint = true
  onConflict : v.dialect.onConflict = true → w.dialect.onConflict = true
  onDuplicateKeyUpdate :
    v.dialect.onDuplicateKeyUpdate = true → w.dialect.onDuplicateKeyUpdate = true
  deleteWithoutFrom : v.dialect.deleteWithoutFrom = true → w.dialect.deleteWithoutFrom = true
  hints : v.dialect.hints ≠ .none → w.dialect.hints = v.dialect.hints
  pagingRequiresOrderBy :
    w.dialect.pagingRequiresOrderBy = true → v.dialect.pagingRequiresOrderBy = true

namespace DialectVersion

theorem covers_refl (v : DialectVersion) : v.Covers v := by
  constructor
  case lexical => rfl
  case hints => exact fun _ => rfl
  all_goals exact id

/-- What exists since some version exists in all later ones. -/
theorem reaches_of_le (d : Dialect) {m n : Nat} (h : m ≤ n) {since : Option Nat}
    (hm : reaches ⟨d, m⟩ since = true) : reaches ⟨d, n⟩ since = true := by
  cases since with
  | none => cases hm
  | some first => exact decide_eq_true (Nat.le_trans (of_decide_eq_true hm) h)

/-- A later version of a dialect covers an earlier one. -/
theorem covers_of_le (d : Dialect) {m n : Nat} (h : m ≤ n) : Covers ⟨d, n⟩ ⟨d, m⟩ :=
  { covers_refl ⟨d, m⟩ with
    paging := reaches_of_le d h
    fetchFirst := reaches_of_le d h
    cte := reaches_of_le d h
    recursiveCte := reaches_of_le d h
    merge := reaches_of_le d h }

end DialectVersion

namespace Parser

variable {α β : Type} {v w : DialectVersion} {x y : Parser α} {f : α → Parser β} {p : α → Prop}
  {q : β → Prop}

/-- What the reader gives under a dialect version has a property, and the
reader gives the same under another version. -/
def Gated (v w : DialectVersion) (x : Parser α) (p : α → Prop) : Prop :=
  ∀ (around : Surroundings) c a d, around.version = v → x.perform around c = .ok (a, d) →
    p a ∧ x.perform { around with version := w } c = .ok (a, d)

-- ============================================================= sequence

theorem gated_pure {a : α} (h : p a) : Gated v w (pure a) p := by
  intro around c b d _ hperform
  cases hperform
  exact ⟨h, rfl⟩

theorem gated_throw {e : Error} : Gated v w (throw e : Parser α) p := by
  intro around c b d _ hperform
  cases hperform

theorem Gated.bind (hx : Gated v w x p) (hf : ∀ a, p a → Gated v w (f a) q) :
    Gated v w (x >>= f) q := by
  intro around c b d hv hperform
  obtain ⟨a, c₁, hfirst, hrest⟩ := perform_bind_eq_ok.mp hperform
  obtain ⟨ha, hfirst'⟩ := hx around c a c₁ hv hfirst
  obtain ⟨hb, hrest'⟩ := hf a ha around c₁ b d hv hrest
  exact ⟨hb, perform_bind_eq_ok.mpr ⟨a, c₁, hfirst', hrest'⟩⟩

/-- What is read first may not matter. -/
theorem Gated.then (hx : Gated v w x p) (hf : ∀ a, Gated v w (f a) q) : Gated v w (x >>= f) q :=
  hx.bind fun a _ => hf a

theorem Gated.map {g : α → β} (hx : Gated v w x p) (hg : ∀ a, p a → q (g a)) :
    Gated v w (g <$> x) q := by
  rw [← bind_pure_comp]
  exact hx.bind fun a ha => gated_pure (hg a ha)

theorem Gated.imp {p' : α → Prop} (hx : Gated v w x p) (h : ∀ a, p a → p' a) :
    Gated v w x p' := by
  intro around c a d hv hperform
  obtain ⟨ha, hperform'⟩ := hx around c a d hv hperform
  exact ⟨h a ha, hperform'⟩

/-- What would be read behind a failure is not. -/
theorem gated_throw_bind {e : Error} : Gated v w ((throw e : Parser α) >>= f) q :=
  (gated_throw (p := fun _ => False)).bind fun _ => False.elim

theorem Gated.ite {c : Prop} [Decidable c] (hx : c → Gated v w x p) (hy : ¬c → Gated v w y p) :
    Gated v w (if c then x else y) p := by
  split
  · next h => exact hx h
  · next h => exact hy h

theorem gated_none : Gated v w (pure none) (IfSome p) :=
  gated_pure nofun

theorem gated_some {a : α} (h : p a) : Gated v w (pure (some a)) (IfSome p) :=
  gated_pure (ifSome_some h)

theorem Gated.some (hx : Gated v w x p) : Gated v w (some <$> x) (IfSome p) :=
  hx.map fun _ => ifSome_some

/-- A reader that is left out on a condition, before another. -/
theorem Gated.when {c : Prop} [Decidable c] {x : Parser Unit} {p : Unit → Prop}
    {f : Unit → Parser β} (hx : Gated v w x p) (hf : Gated v w (f ()) q) :
    Gated v w (if c then x >>= f else f ()) q :=
  .ite (fun _ => hx.then fun _ => hf) fun _ => hf

/-- One of two readers, before another. -/
theorem Gated.choose {c : Prop} [Decidable c] (hx : Gated v w x p) (hy : Gated v w y p)
    (hf : ∀ a, p a → Gated v w (f a) q) : Gated v w (if c then x >>= f else y >>= f) q :=
  .ite (fun _ => hx.bind hf) fun _ => hy.bind hf

-- =================================================== what is read around

/-- A construct is only read on if the version has it. -/
theorem gated_require {condition : DialectVersion → Bool} {feature : Feature}
    (h : condition v = true → condition w = true) :
    Gated v w (require condition feature) fun _ => condition v = true := by
  have hrequire : ∀ (around : Surroundings) c, (require condition feature).perform around c =
      if condition around.version then .ok ((), c)
      else .error (.unsupported around.version feature) := by
    intro around c
    show Parser.perform (if condition around.version then _ else _) around c = _
    split <;> rfl
  intro around c a d hv hperform
  rw [hrequire, hv] at hperform
  rw [hrequire]
  split at hperform
  · next hcondition =>
      cases hperform
      exact ⟨hcondition, if_pos (h hcondition)⟩
  · cases hperform

/-- Whatever is read around but the version is the same under the other
one. -/
theorem gated_read {f : Surroundings → Parser β}
    (hsame : ∀ around, f { around with version := w } = f around)
    (hf : ∀ around, Gated v w (f around) q) : Gated v w (read >>= f) q := by
  intro around c b d hv hperform
  obtain ⟨hb, hperform'⟩ := hf around around c b d hv hperform
  refine ⟨hb, ?_⟩
  show (f { around with version := w }).perform _ c = _
  rw [hsame]
  exact hperform'

/-- A failure that the other version only has where this one has it. -/
theorem gated_refuse (condition : DialectVersion → Bool) {e : Error} {f : PUnit → Parser β}
    (h : condition w = true → condition v = true)
    (hf : condition v = false → Gated v w (f ⟨⟩) q) :
    Gated v w
      (read >>= fun around => if condition around.version then throw e >>= f else f ⟨⟩) q := by
  have hread : ∀ (around : Surroundings) c,
      (read >>= fun around => if condition around.version then throw e >>= f else f ⟨⟩).perform
          around c =
        Parser.perform (if condition around.version then throw e >>= f else f ⟨⟩) around c :=
    fun _ _ => rfl
  intro around c b d hv hperform
  rw [hread, hv] at hperform
  rw [hread]
  cases hcondition : condition v with
  | true =>
      rw [hcondition] at hperform
      cases hperform
  | false =>
      have hother : ¬condition w = true := fun hw => Bool.false_ne_true (hcondition ▸ h hw)
      rw [hcondition] at hperform
      obtain ⟨hb, hperform'⟩ := hf hcondition around c b d hv hperform
      exact ⟨hb, (if_neg hother).symm ▸ hperform'⟩

/-- What upsert assignments are read with. -/
theorem Gated.upserting (hx : Gated v w x p) :
    Gated v w (withReader ({ · with upsert := true }) x) p :=
  fun around c a d hv hperform => hx { around with upsert := true } c a d hv hperform

-- ======================================================== single tokens

theorem gated_get : Gated v w (get : Parser Cursor) fun _ => True := by
  intro around c a d _ hperform
  cases hperform
  exact ⟨trivial, rfl⟩

theorem gated_set {c : Cursor} : Gated v w (set c : Parser PUnit) fun _ => True := by
  intro around c a d _ hperform
  cases hperform
  exact ⟨trivial, rfl⟩

theorem gated_fault {m : Malformed} : Gated v w (fault m : Parser α) p :=
  gated_get.then fun _ => gated_throw

theorem gated_fault_bind {m : Malformed} : Gated v w ((fault m : Parser α) >>= f) q :=
  (gated_fault (p := fun _ => False)).bind fun _ => False.elim

theorem gated_ending : Gated v w (ending : Parser α) p := by
  refine gated_read (fun _ => rfl) fun around => ?_
  split
  · exact gated_throw
  · exact gated_throw

theorem gated_next : Gated v w next fun _ => True := by
  refine gated_get.then fun c => ?_
  split
  · exact gated_ending
  · exact gated_set.then fun _ => gated_pure trivial

theorem gated_peek : Gated v w peek fun _ => True := by
  refine gated_get.then fun c => ?_
  split
  · exact gated_pure trivial
  · refine gated_read (fun _ => rfl) fun around => ?_
    split
    · exact gated_throw
    · exact gated_pure trivial

theorem gated_peekSecond : Gated v w peekSecond fun _ => True :=
  gated_get.then fun _ => gated_pure trivial

theorem gated_peekPosition : Gated v w peekPosition fun _ => True := by
  refine gated_get.then fun c => ?_
  split
  · exact gated_pure trivial
  · exact gated_read (fun _ => rfl) fun _ => gated_pure trivial

/-- What is made of a token has the properties of all that the function
can make. -/
theorem gated_nextMap {g : Token → Option α} (hg : ∀ t, IfSome p (g t)) :
    Gated v w (nextMap? g) (IfSome p) := by
  refine gated_get.then fun c => ?_
  split
  · exact gated_none
  · next lexeme rest _ =>
      split
      · exact gated_none
      · next a ha => exact gated_set.then fun _ => gated_some (hg _ a ha)

theorem gated_accept {t : Token} : Gated v w (accept t) fun _ => True :=
  (gated_nextMap (p := fun _ => True) fun _ _ _ => trivial).then fun _ => gated_pure trivial

theorem gated_expect {t : Token} : Gated v w (expect t) fun _ => True :=
  gated_next.then fun _ => .ite (fun _ => gated_pure trivial) fun _ => gated_fault

theorem gated_skipOver {t : Token} : Gated v w (skipOver t) fun _ => True :=
  gated_accept.then fun _ => gated_pure trivial

theorem gated_identifier : Gated v w identifier fun _ => True := by
  refine gated_next.then fun t => ?_
  split
  · exact gated_pure trivial
  · exact gated_fault

-- =========================================================== repetition

theorem gated_iterateWithin {step : α → Parser (Option α)}
    (hstep : ∀ a, p a → Gated v w (step a) (IfSome p)) (count : Nat) {a : α} (ha : p a) :
    Gated v w (iterateWithin step count a) p := by
  induction count generalizing a with
  | zero => exact gated_pure ha
  | succ count ih =>
      refine (hstep a ha).bind fun o ho => ?_
      split
      · exact gated_pure ha
      · next b => exact ih (ho b rfl)

/-- A property that each round of a repetition keeps. -/
theorem gated_iterate {step : α → Parser (Option α)}
    (hstep : ∀ a, p a → Gated v w (step a) (IfSome p)) {a : α} (ha : p a) :
    Gated v w (iterate step a) p :=
  gated_get.then fun _ => gated_iterateWithin hstep _ ha

theorem gated_commaFold {item : α → Parser α} (hitem : ∀ a, p a → Gated v w (item a) p) {a : α}
    (ha : p a) : Gated v w (commaFold item a) p := by
  refine (hitem a ha).bind fun b hb => gated_iterate (fun c hc => ?_) hb
  exact gated_accept.then fun _ => .ite (fun _ => (hitem c hc).some) fun _ => gated_none

theorem gated_commaList (hx : Gated v w x p) :
    Gated v w (commaList x) fun items => ∀ a ∈ items, p a := by
  refine gated_commaFold (fun items hitems => ?_) (List.forall_mem_nil _)
  exact hx.bind fun a ha => gated_pure (forall_mem_concat hitems ha)

theorem gated_parenthesized (hx : Gated v w x p) : Gated v w (parenthesized x) p :=
  gated_expect.then fun _ => hx.bind fun _ ha => gated_expect.then fun _ => gated_pure ha

theorem gated_identifierList : Gated v w identifierList fun _ => True :=
  gated_parenthesized ((gated_commaList gated_identifier).imp fun _ _ => trivial)

theorem gated_clause {word : Keyword} (hx : Gated v w x p) :
    Gated v w (clause? word x) (IfSome p) :=
  gated_accept.then fun _ => .ite (fun _ => hx.some) fun _ => gated_none

/-- The items of a clause; none if there is no clause. -/
theorem gated_clauseItems {word : Keyword} {x : Parser (List α)}
    (hx : Gated v w x fun items => ∀ a ∈ items, p a) :
    Gated v w (do pure ((← clause? word x).getD [])) fun items => ∀ a ∈ items, p a := by
  refine (gated_clause hx).bind fun items? hitems => gated_pure ?_
  cases items? with
  | none => exact List.forall_mem_nil _
  | some items => exact hitems items rfl

theorem gated_foldlM {step : α → β → Parser α} {items : List β}
    (hstep : ∀ a b, p a → Gated v w (step a b) p) {a : α} (ha : p a) :
    Gated v w (items.foldlM step a) p := by
  induction items generalizing a with
  | nil => exact gated_pure ha
  | cons b items ih => exact (hstep a b ha).bind fun _ => ih

end Parser

end DialectDb
