/-
What readers make and what they leave. A reader looks at the tokens from
the front and takes them one by one, so whatever it makes, it leaves an
end of the tokens that there were. What it makes may depend on whether
upsert assignments are read around it, and on nothing else around it: so
`Makes` says of a reader, where they are or where they are not, that all
it gives has a property.

There is a rule for each reader of `Grammar.Parser` and for each way to
put readers together. What is known of a token or a name is of no use
here, so that most rules for single tokens promise no more than `True`.
-/
import DialectDb.Proofs.Reading

namespace DialectDb.Parser

variable {α β : Type} {upsert : Bool} {x y : Parser α} {f : α → Parser β} {p : α → Prop}
  {q : β → Prop}

/-- Where upsert assignments are read, or where they are not, whatever
the reader gives has a property, and what it leaves is an end of the
tokens. -/
def Makes (upsert : Bool) (x : Parser α) (p : α → Prop) : Prop :=
  ∀ (around : Surroundings) c a d, around.upsert = upsert → x.perform around c = .ok (a, d) →
    p a ∧ d.lexemes <:+ c.lexemes

/-- A reader of which no more is known than that it leaves an end of the
tokens. -/
abbrev Moves (upsert : Bool) (x : Parser α) : Prop :=
  Makes upsert x fun _ => True

-- ============================================================= sequence

theorem makes_pure {a : α} (h : p a) : Makes upsert (pure a) p := by
  intro around c b d _ hperform
  cases hperform
  exact ⟨h, List.suffix_rfl⟩

theorem makes_throw {e : Error} : Makes upsert (throw e : Parser α) p := by
  intro around c b d _ hperform
  cases hperform

theorem Makes.bind (hx : Makes upsert x p) (hf : ∀ a, p a → Makes upsert (f a) q) :
    Makes upsert (x >>= f) q := by
  intro around c b d hupsert hperform
  obtain ⟨a, c₁, hfirst, hrest⟩ := perform_bind_eq_ok.mp hperform
  obtain ⟨ha, hmid⟩ := hx around c a c₁ hupsert hfirst
  obtain ⟨hb, hend⟩ := hf a ha around c₁ b d hupsert hrest
  exact ⟨hb, hend.trans hmid⟩

/-- What is read first may not matter. -/
theorem Makes.then (hx : Makes upsert x p) (hf : ∀ a, Makes upsert (f a) q) :
    Makes upsert (x >>= f) q :=
  hx.bind fun a _ => hf a

theorem Makes.map {g : α → β} (hx : Makes upsert x p) (hg : ∀ a, p a → q (g a)) :
    Makes upsert (g <$> x) q := by
  rw [← bind_pure_comp]
  exact hx.bind fun a ha => makes_pure (hg a ha)

theorem Makes.imp {p' : α → Prop} (hx : Makes upsert x p) (h : ∀ a, p a → p' a) :
    Makes upsert x p' := by
  intro around c a d hupsert hperform
  obtain ⟨ha, hend⟩ := hx around c a d hupsert hperform
  exact ⟨h a ha, hend⟩

theorem Makes.moves (hx : Makes upsert x p) : Moves upsert x :=
  hx.imp fun _ _ => trivial

/-- What would be read behind a failure is not. -/
theorem makes_throw_bind {e : Error} : Makes upsert ((throw e : Parser α) >>= f) q :=
  (makes_throw (p := fun _ => False)).bind fun _ => False.elim

theorem Makes.ite {c : Prop} [Decidable c] (hx : c → Makes upsert x p)
    (hy : ¬c → Makes upsert y p) : Makes upsert (if c then x else y) p := by
  split
  · next h => exact hx h
  · next h => exact hy h

theorem makes_none : Makes upsert (pure none) (IfSome p) :=
  makes_pure nofun

theorem makes_some {a : α} (h : p a) : Makes upsert (pure (some a)) (IfSome p) :=
  makes_pure (ifSome_some h)

theorem Makes.some (hx : Makes upsert x p) : Makes upsert (some <$> x) (IfSome p) :=
  hx.map fun _ => ifSome_some

/-- A reader that is left out on a condition, before another. -/
theorem Makes.when {c : Prop} [Decidable c] {x : Parser Unit} {p : Unit → Prop}
    {f : Unit → Parser β} (hx : Makes upsert x p) (hf : Makes upsert (f ()) q) :
    Makes upsert (if c then x >>= f else f ()) q :=
  .ite (fun _ => hx.then fun _ => hf) fun _ => hf

/-- One of two readers, before another. -/
theorem Makes.choose {c : Prop} [Decidable c] (hx : Makes upsert x p) (hy : Makes upsert y p)
    (hf : ∀ a, p a → Makes upsert (f a) q) : Makes upsert (if c then x >>= f else y >>= f) q :=
  .ite (fun _ => hx.bind hf) fun _ => hy.bind hf

-- =================================================== what is read around

theorem makes_read {f : Surroundings → Parser β}
    (hf : ∀ around : Surroundings, around.upsert = upsert → Makes upsert (f around) q) :
    Makes upsert (read >>= f) q := by
  intro around c b d hupsert hperform
  exact hf around hupsert around c b d hupsert hperform

theorem moves_require {condition : DialectVersion → Bool} {feature : Feature} :
    Moves upsert (require condition feature) :=
  makes_read fun _ _ => .ite (fun _ => makes_pure trivial) fun _ => makes_throw

/-- What upsert assignments are read with. -/
theorem Makes.upserting (hx : Makes true x p) :
    Makes upsert (withReader ({ · with upsert := true }) x) p :=
  fun around c a d _ hperform => hx { around with upsert := true } c a d rfl hperform

-- ======================================================== single tokens

/-- Looking at the place does not move it. -/
theorem makes_get {f : Cursor → Parser β} (hf : ∀ c, Makes upsert (f c) q) :
    Makes upsert (get >>= f) q :=
  fun around c b d hupsert hperform => hf c around c b d hupsert hperform

theorem makes_fault {m : Malformed} : Makes upsert (fault m : Parser α) p :=
  makes_get fun _ => makes_throw

theorem makes_fault_bind {m : Malformed} : Makes upsert ((fault m : Parser α) >>= f) q :=
  (makes_fault (p := fun _ => False)).bind fun _ => False.elim

theorem makes_ending : Makes upsert (ending : Parser α) p := by
  refine makes_read fun around _ => ?_
  split
  · exact makes_throw
  · exact makes_throw

theorem moves_next : Moves upsert next := by
  rintro around ⟨_ | ⟨lexeme, rest⟩, position, ordinals⟩ t d - hperform
  · cases around with
    | mk version failure size upserting => cases failure <;> cases hperform
  · cases hperform
    exact ⟨trivial, List.suffix_cons lexeme rest⟩

theorem moves_peek : Moves upsert peek := by
  refine makes_get fun c => ?_
  split
  · exact makes_pure trivial
  · refine makes_read fun around _ => ?_
    split
    · exact makes_throw
    · exact makes_pure trivial

theorem moves_peekSecond : Moves upsert peekSecond :=
  makes_get fun _ => makes_pure trivial

theorem moves_peekPosition : Moves upsert peekPosition := by
  refine makes_get fun c => ?_
  split
  · exact makes_pure trivial
  · exact makes_read fun _ _ => makes_pure trivial

/-- What is made of a token has the properties of all that the function
can make. -/
theorem makes_nextMap {g : Token → Option α} (hg : ∀ t, IfSome p (g t)) :
    Makes upsert (nextMap? g) (IfSome p) := by
  rintro around ⟨_ | ⟨lexeme, rest⟩, position, ordinals⟩ a d - hperform
  · cases hperform
    exact ⟨nofun, List.suffix_rfl⟩
  · unfold nextMap? at hperform
    rw [perform_bind rfl] at hperform
    dsimp only at hperform
    split at hperform
    · cases hperform
      exact ⟨nofun, List.suffix_rfl⟩
    · next a ha =>
        cases hperform
        exact ⟨ifSome_some (hg _ a ha), List.suffix_cons lexeme rest⟩

theorem moves_nextMap {g : Token → Option α} : Moves upsert (nextMap? g) :=
  (makes_nextMap (p := fun _ => True) fun _ _ _ => trivial).moves

theorem moves_accept {t : Token} : Moves upsert (accept t) :=
  moves_nextMap.then fun _ => makes_pure trivial

theorem moves_expect {t : Token} : Moves upsert (expect t) :=
  moves_next.then fun _ => .ite (fun _ => makes_pure trivial) fun _ => makes_fault

theorem moves_skipOver {t : Token} : Moves upsert (skipOver t) :=
  moves_accept.then fun _ => makes_pure trivial

theorem moves_identifier : Moves upsert identifier := by
  refine moves_next.then fun t => ?_
  split
  · exact makes_pure trivial
  · exact makes_fault

/-- Numbering a placeholder takes no token. -/
theorem makes_number {ordinals : Cursor → Nat} {f : Cursor → Parser β}
    (hf : ∀ c, Makes upsert (f c) q) :
    Makes upsert (get >>= fun c => set { c with ordinals := ordinals c } >>= fun _ => f c) q :=
  fun around c b d hupsert hperform =>
    hf c around { c with ordinals := ordinals c } b d hupsert hperform

-- =========================================================== repetition

theorem makes_iterateWithin {step : α → Parser (Option α)}
    (hstep : ∀ a, p a → Makes upsert (step a) (IfSome p)) (count : Nat) {a : α} (ha : p a) :
    Makes upsert (iterateWithin step count a) p := by
  induction count generalizing a with
  | zero => exact makes_pure ha
  | succ count ih =>
      refine (hstep a ha).bind fun o ho => ?_
      split
      · exact makes_pure ha
      · next b => exact ih (ho b rfl)

/-- A property that each round of a repetition keeps. -/
theorem makes_iterate {step : α → Parser (Option α)}
    (hstep : ∀ a, p a → Makes upsert (step a) (IfSome p)) {a : α} (ha : p a) :
    Makes upsert (iterate step a) p :=
  makes_get fun _ => makes_iterateWithin hstep _ ha

/-- The first item may be read before the property holds. -/
theorem makes_commaFold {item : α → Parser α} {a : α} (hfirst : Makes upsert (item a) p)
    (hitem : ∀ b, p b → Makes upsert (item b) p) : Makes upsert (commaFold item a) p := by
  refine hfirst.bind fun b hb => makes_iterate (fun c hc => ?_) hb
  exact moves_accept.then fun _ => .ite (fun _ => (hitem c hc).some) fun _ => makes_none

/-- A list has items, since there is one before the first comma. -/
theorem makes_commaList_nonempty (hx : Makes upsert x p) :
    Makes upsert (commaList x) fun items => items ≠ [] ∧ ∀ a ∈ items, p a := by
  have hitem : ∀ items : List α, (∀ a ∈ items, p a) →
      Makes upsert (do pure (items ++ [← x])) fun items => items ≠ [] ∧ ∀ a ∈ items, p a := by
    intro items hitems
    refine hx.bind fun a ha => makes_pure ⟨?_, forall_mem_concat hitems ha⟩
    exact List.append_ne_nil_of_right_ne_nil items (List.cons_ne_nil a [])
  exact makes_commaFold (hitem [] (List.forall_mem_nil _)) fun items hitems => hitem items hitems.2

theorem makes_commaList (hx : Makes upsert x p) :
    Makes upsert (commaList x) fun items => ∀ a ∈ items, p a :=
  (makes_commaList_nonempty hx).imp fun _ h => h.2

theorem makes_parenthesized (hx : Makes upsert x p) : Makes upsert (parenthesized x) p :=
  moves_expect.then fun _ => hx.bind fun _ ha => moves_expect.then fun _ => makes_pure ha

theorem moves_identifierList : Moves upsert identifierList :=
  makes_parenthesized (makes_commaList moves_identifier).moves

theorem makes_clause {word : Keyword} (hx : Makes upsert x p) :
    Makes upsert (clause? word x) (IfSome p) :=
  moves_accept.then fun _ => .ite (fun _ => hx.some) fun _ => makes_none

/-- The items of a clause; none if there is no clause. -/
theorem makes_clauseItems {word : Keyword} {x : Parser (List α)}
    (hx : Makes upsert x fun items => ∀ a ∈ items, p a) :
    Makes upsert (do pure ((← clause? word x).getD [])) fun items => ∀ a ∈ items, p a := by
  refine (makes_clause hx).bind fun items? hitems => makes_pure ?_
  cases items? with
  | none => exact List.forall_mem_nil _
  | some items => exact hitems items rfl

theorem makes_foldlM {step : α → β → Parser α} {items : List β}
    (hstep : ∀ a b, p a → Makes upsert (step a b) p) {a : α} (ha : p a) :
    Makes upsert (items.foldlM step a) p := by
  induction items generalizing a with
  | nil => exact makes_pure ha
  | cons b items ih => exact (hstep a b ha).bind fun _ => ih

end DialectDb.Parser
