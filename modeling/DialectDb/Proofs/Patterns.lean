/-
What LIKE means. A text matches a pattern if it can be cut into one
piece for each character of the pattern, each of which is what its
character stands for (`Pattern.Matches`). The search for the pieces goes
by what is between the percent signs and takes the first place of each,
and never looks back.

Nothing is lost by that: if what is left of a text behind some place can
be matched, so can what is left behind an earlier place, since the
percent sign that comes next can stand for more (`Spread.of_suffix`).
-/
import Mathlib
import DialectDb.Formula
import DialectDb.Proofs.Result

namespace DialectDb

namespace Pattern

-- ============================================================= meaning

/-- The texts that a character of a pattern stands for. -/
inductive Stands : Char → List Char → Prop
  | any (piece : List Char) : Stands '%' piece
  | one (d : Char) : Stands '_' [d]
  | same {c d : Char} (percent : c ≠ '%') (underscore : c ≠ '_') (h : Text.fold d = Text.fold c) :
      Stands c [d]

/-- A text that can be cut into what the characters of a pattern stand
for, in order. -/
def Matches (pattern text : List Char) : Prop :=
  ∃ pieces, List.Forall₂ Stands pattern pieces ∧ pieces.flatten = text

/-- A pattern that is not too large to be used. -/
def WithinLimit (pattern : String) : Prop :=
  ReadingOrder.forward.fits pattern = true ∧ ReadingOrder.backward.fits pattern = true

theorem matches_nil {text : List Char} : Matches [] text ↔ text = [] := by
  constructor
  · rintro ⟨_, ⟨⟩, rfl⟩
    rfl
  · rintro rfl
    exact ⟨[], .nil, rfl⟩

theorem matches_cons {c : Char} {pattern text : List Char} :
    Matches (c :: pattern) text ↔
      ∃ piece rest, text = piece ++ rest ∧ Stands c piece ∧ Matches pattern rest := by
  constructor
  · rintro ⟨_, hpieces, rfl⟩
    cases hpieces with
    | cons hfirst hrest => exact ⟨_, _, List.flatten_cons, hfirst, _, hrest, rfl⟩
  · rintro ⟨piece, _, rfl, hfirst, pieces, hrest, rfl⟩
    exact ⟨piece :: pieces, .cons hfirst hrest, List.flatten_cons⟩

-- ============================================================== pieces

/-- A piece of a pattern and characters that it accepts one by one. -/
def Accepts (piece : List Wanted) (found : List Nat) : Prop :=
  List.Forall₂ (fun wanted code => wanted.accepts code = true) piece found

theorem behind?_eq_some {piece : List Wanted} {text rest : List Nat} :
    behind? piece text = some rest ↔ ∃ found, text = found ++ rest ∧ Accepts piece found := by
  induction piece generalizing text with
  | nil =>
      constructor
      · intro h
        exact ⟨[], Option.some.inj h, .nil⟩
      · rintro ⟨_, rfl, ⟨⟩⟩
        rfl
  | cons wanted piece ih =>
      cases text with
      | nil =>
          constructor
          · nofun
          · rintro ⟨_, htext, hfound⟩
            cases hfound with
            | cons _ _ => cases htext
      | cons code text =>
          rw [behind?, Option.ite_none_right_eq_some, ih]
          constructor
          · rintro ⟨hcode, found, rfl, hfound⟩
            exact ⟨code :: found, rfl, .cons hcode hfound⟩
          · rintro ⟨_, htext, hfound⟩
            cases hfound with
            | cons hcode hfound =>
                cases htext
                exact ⟨hcode, _, rfl, hfound⟩

/-- The place where a piece is found accepts it. -/
theorem behindFirst?_accepts {piece : List Wanted} {text rest : List Nat}
    (h : behindFirst? piece text = some rest) :
    ∃ gap found, text = gap ++ (found ++ rest) ∧ Accepts piece found := by
  induction text with
  | nil =>
      obtain ⟨found, htext, hfound⟩ := behind?_eq_some.mp h
      exact ⟨[], found, htext, hfound⟩
  | cons code text ih =>
      rw [behindFirst?] at h
      split at h
      · next hhere =>
          cases h
          obtain ⟨found, htext, hfound⟩ := behind?_eq_some.mp hhere
          exact ⟨[], found, htext, hfound⟩
      · obtain ⟨gap, found, rfl, hfound⟩ := ih h
        exact ⟨code :: gap, found, rfl, hfound⟩

/-- A piece is found if there is a place for it, and no later than
there. -/
theorem behindFirst?_first {piece : List Wanted} {found rest : List Nat}
    (h : Accepts piece found) (gap : List Nat) :
    ∃ more, behindFirst? piece (gap ++ (found ++ rest)) = some more ∧ rest <:+ more := by
  have hhere : behind? piece (found ++ rest) = some rest := behind?_eq_some.mpr ⟨found, rfl, h⟩
  induction gap with
  | nil =>
      refine ⟨rest, ?_, List.suffix_rfl⟩
      show behindFirst? piece (found ++ rest) = some rest
      cases htext : found ++ rest with
      | nil => rw [behindFirst?, ← htext, hhere]
      | cons code text => rw [behindFirst?, ← htext, hhere]
  | cons code gap ih =>
      rw [List.cons_append, behindFirst?]
      split
      · next more hmore =>
          refine ⟨more, rfl, ?_⟩
          obtain ⟨other, htext, hother⟩ := behind?_eq_some.mp hmore
          -- both are what is left of one text, and this place is the earlier one
          have hlength := congrArg List.length htext
          simp only [List.length_cons, List.length_append, ← h.length_eq, ← hother.length_eq]
            at hlength
          have hrest : rest <:+ code :: (gap ++ (found ++ rest)) :=
            ⟨code :: (gap ++ found), by simp⟩
          exact List.suffix_of_suffix_length_le hrest ⟨other, htext.symm⟩ (by omega)
      · exact ih

theorem endsWith_iff {piece : List Wanted} {text : List Nat} :
    endsWith piece text = true ↔ ∃ gap found, text = gap ++ found ∧ Accepts piece found := by
  rw [endsWith, beq_iff_eq, behind?_eq_some]
  constructor
  · rintro ⟨found, htext, hfound⟩
    rw [List.append_nil] at htext
    exact ⟨_, found, by rw [← htext, List.take_append_drop], hfound⟩
  · rintro ⟨gap, found, rfl, hfound⟩
    refine ⟨found, ?_, hfound⟩
    rw [hfound.length_eq, List.length_append, Nat.add_sub_cancel, List.drop_left, List.append_nil]

-- ====================================================== several pieces

/-- A text with pieces of a pattern in order, each behind characters
that a percent sign stands for. The last piece is at the end. -/
inductive Spread : List (List Wanted) → List Nat → Prop
  | nil : Spread [] []
  | cons {piece : List Wanted} {pieces : List (List Wanted)} {found rest : List Nat}
      (gap : List Nat) (hfound : Accepts piece found) (hrest : Spread pieces rest) :
      Spread (piece :: pieces) (gap ++ (found ++ rest))

theorem Spread.of_suffix {piece : List Wanted} {pieces : List (List Wanted)} {rest text : List Nat}
    (h : Spread (piece :: pieces) rest) (hsuffix : rest <:+ text) :
    Spread (piece :: pieces) text := by
  obtain ⟨before, rfl⟩ := hsuffix
  cases h with
  | cons gap hfound hrest =>
      rw [← List.append_assoc]
      exact .cons (before ++ gap) hfound hrest

theorem acceptsLater_iff {pieces : List (List Wanted)} {text : List Nat} :
    acceptsLater pieces text = true ↔ Spread pieces text := by
  fun_induction acceptsLater pieces text with
  | case1 text =>
      rw [List.isEmpty_iff]
      constructor
      · rintro rfl
        exact .nil
      · intro h
        cases h
        rfl
  | case2 piece text =>
      rw [endsWith_iff]
      constructor
      · rintro ⟨gap, found, rfl, hfound⟩
        rw [← List.append_nil found]
        exact .cons gap hfound .nil
      · intro h
        cases h with
        | cons gap hfound hrest =>
            cases hrest
            exact ⟨gap, _, by rw [List.append_nil], hfound⟩
  | case3 piece pieces text hmany rest hrest ih =>
      rw [ih]
      constructor
      · intro h
        obtain ⟨gap, found, rfl, hfound⟩ := behindFirst?_accepts hrest
        exact .cons gap hfound h
      · intro h
        cases h with
        | cons gap hfound hlater =>
            obtain ⟨more, hmore, hsuffix⟩ := behindFirst?_first hfound gap
            rw [hmore] at hrest
            cases hrest
            cases pieces with
            | nil => exact (hmany rfl).elim
            | cons next pieces => exact hlater.of_suffix hsuffix
  | case4 piece pieces text hmany hnone =>
      constructor
      · nofun
      · intro h
        cases h with
        | cons gap hfound hlater =>
            obtain ⟨more, hmore, -⟩ := behindFirst?_first hfound gap
            rw [hmore] at hnone
            cases hnone

/-- A text that begins with the first of some pieces and has the others
spread over what is left. -/
def Begins (pieces : List (List Wanted)) (text : List Nat) : Prop :=
  ∃ found rest, text = found ++ rest ∧ Accepts (pieces.headD []) found ∧ Spread pieces.tail rest

theorem acceptsPieces_iff {pieces : List (List Wanted)} {text : List Nat} :
    acceptsPieces pieces text = true ↔ Begins pieces text := by
  unfold acceptsPieces Begins
  split
  · next rest hrest =>
      rw [acceptsLater_iff]
      constructor
      · intro h
        obtain ⟨found, rfl, hfound⟩ := behind?_eq_some.mp hrest
        exact ⟨found, rest, rfl, hfound, h⟩
      · rintro ⟨found, other, rfl, hfound, h⟩
        rw [behind?_eq_some.mpr ⟨found, rfl, hfound⟩] at hrest
        cases hrest
        exact h
  · next hnone =>
      constructor
      · nofun
      · rintro ⟨found, other, rfl, hfound, -⟩
        rw [behind?_eq_some.mpr ⟨found, rfl, hfound⟩] at hnone
        cases hnone

-- ========================================================== characters

/-- What the characters of a pattern ask, cut at the percent signs. -/
def wanted (pattern : List Char) : List (List Wanted) :=
  (pattern.splitOnP (· == '%')).map (·.map .ofChar)

theorem accepts_ofChar {c d : Char} (h : c ≠ '%') :
    (Wanted.ofChar c).accepts (Text.fold d) = true ↔ Stands c [d] := by
  unfold Wanted.ofChar
  split
  · next hunderscore =>
      subst hunderscore
      exact iff_of_true rfl (.one d)
  · next hunderscore =>
      rw [Wanted.accepts, beq_iff_eq]
      constructor
      · exact .same h hunderscore
      · intro hstands
        cases hstands with
        | any => exact absurd rfl h
        | one => exact absurd rfl hunderscore
        | same _ _ hsame => exact hsame

theorem wanted_percent (pattern : List Char) : wanted ('%' :: pattern) = [] :: wanted pattern := by
  rw [wanted, List.splitOnP_cons_eq_if_modifyHead]
  rfl

theorem wanted_ne_nil (pattern : List Char) : wanted pattern ≠ [] := by
  simp [wanted]

/-- Any other character goes before the first piece. -/
theorem wanted_cons {c : Char} (h : c ≠ '%') (pattern : List Char) : ∃ first later,
    wanted pattern = first :: later ∧ wanted (c :: pattern) = (.ofChar c :: first) :: later := by
  obtain ⟨first, later, hpieces⟩ := List.exists_cons_of_ne_nil (List.splitOnP_ne_nil (· == '%') pattern)
  refine ⟨first.map .ofChar, later.map (·.map .ofChar), by rw [wanted, hpieces]; rfl, ?_⟩
  rw [wanted, List.splitOnP_cons_eq_if_modifyHead, if_neg (by simpa using h), hpieces]
  rfl

/-- Behind a percent sign all pieces of a pattern are spread. -/
theorem begins_percent {pattern : List Char} {text : List Nat} :
    Begins (wanted ('%' :: pattern)) text ↔
      ∃ gap rest, text = gap ++ rest ∧ Begins (wanted pattern) rest := by
  obtain ⟨first, later, hpieces⟩ := List.exists_cons_of_ne_nil (wanted_ne_nil pattern)
  rw [wanted_percent, hpieces]
  constructor
  · rintro ⟨_, _, rfl, ⟨⟩, hspread⟩
    cases hspread with
    | cons gap hfound hrest => exact ⟨gap, _, rfl, _, _, rfl, hfound, hrest⟩
  · rintro ⟨gap, _, rfl, found, rest, rfl, hfound, hrest⟩
    exact ⟨[], _, rfl, .nil, .cons gap hfound hrest⟩

theorem begins_cons {c : Char} (h : c ≠ '%') {pattern : List Char} {text : List Nat} :
    Begins (wanted (c :: pattern)) text ↔
      ∃ code rest, text = code :: rest ∧ (Wanted.ofChar c).accepts code = true ∧
        Begins (wanted pattern) rest := by
  obtain ⟨first, later, hpieces, hcons⟩ := wanted_cons h pattern
  rw [hcons, hpieces]
  constructor
  · rintro ⟨_, rest, rfl, hfound, hspread⟩
    cases hfound with
    | cons hcode hfound => exact ⟨_, _, rfl, hcode, _, _, rfl, hfound, hspread⟩
  · rintro ⟨code, _, rfl, hcode, found, rest, rfl, hfound, hspread⟩
    exact ⟨code :: found, rest, rfl, .cons hcode hfound, hspread⟩

theorem begins_wanted {pattern text : List Char} :
    Begins (wanted pattern) (text.map Text.fold) ↔ Matches pattern text := by
  induction pattern generalizing text with
  | nil =>
      rw [matches_nil]
      constructor
      · rintro ⟨_, _, htext, ⟨⟩, ⟨⟩⟩
        exact List.map_eq_nil_iff.mp htext
      · rintro rfl
        exact ⟨[], [], rfl, .nil, .nil⟩
  | cons c pattern ih =>
      rw [matches_cons]
      by_cases hpercent : c = '%'
      · subst hpercent
        rw [begins_percent]
        constructor
        · rintro ⟨_, _, htext, hbegins⟩
          obtain ⟨piece, rest, rfl, rfl, rfl⟩ := List.map_eq_append_iff.mp htext
          exact ⟨piece, rest, rfl, .any piece, ih.mp hbegins⟩
        · rintro ⟨piece, rest, rfl, -, hmatches⟩
          exact ⟨_, _, List.map_append, ih.mpr hmatches⟩
      · rw [begins_cons hpercent]
        constructor
        · rintro ⟨_, _, htext, hcode, hbegins⟩
          obtain ⟨d, rest, rfl, rfl, rfl⟩ := List.map_eq_cons_iff.mp htext
          exact ⟨[d], rest, rfl, (accepts_ofChar hpercent).mp hcode, ih.mp hbegins⟩
        · rintro ⟨piece, rest, rfl, hstands, hmatches⟩
          obtain ⟨d, rfl⟩ : ∃ d, piece = [d] := by
            cases hstands with
            | any => exact absurd rfl hpercent
            | one d | same _ _ _ => exact ⟨_, rfl⟩
          exact ⟨_, _, rfl, (accepts_ofChar hpercent).mpr hstands, ih.mpr hmatches⟩

/-- The search finds pieces of a text iff there are some. -/
theorem accepts_iff {p : Pattern} {text : String} :
    p.accepts text = true ↔ Matches p.text.toList text.toList :=
  acceptsPieces_iff.trans begins_wanted

theorem ofText_of_withinLimit {pattern : String} (h : WithinLimit pattern) :
    ofText pattern = .ok ⟨pattern⟩ :=
  if_pos (Bool.and_eq_true_iff.mpr h)

end Pattern

-- ================================================================ LIKE

namespace Value

theorem like_of_withinLimit {pattern : String} (h : Pattern.WithinLimit pattern) (value : Value) :
    value.like (.string pattern) = value.likePattern ⟨pattern⟩ := by
  cases value with
  | string text => rw [like, Pattern.ofText_of_withinLimit h]; rfl
  | _ => rfl

end Value

namespace Formula

/-- LIKE means one thing, whether its pattern is constant or a value of
the row. On texts it is true iff the text can be cut as the pattern says,
and else false. -/
theorem like_means {pattern : String} (h : Pattern.WithinLimit pattern) (left : Formula) :
    ∃ fixed, Formula.like left (.const (.string pattern)) = .ok fixed ∧
      (∀ right row, right.eval row = .ok (.string pattern) →
        fixed.eval row = (Formula.binary .like left right).eval row) ∧
      ∀ row text, left.eval row = .ok (.string text) →
        ∃ b, fixed.eval row = .ok (.boolean b) ∧
          (b = true ↔ Pattern.Matches pattern.toList text.toList) := by
  refine ⟨.likePattern left ⟨pattern⟩, ?_, fun right row hright => ?_, fun row text hleft => ?_⟩
  · rw [like, Pattern.ofText_of_withinLimit h]
    rfl
  · show (left.eval row >>= fun value => value.likePattern ⟨pattern⟩) =
      left.eval row >>= fun value => right.eval row >>= fun p => BinaryOp.like.apply value p
    refine Result.bind_congr_ok fun value _ => ?_
    rw [hright]
    exact (Value.like_of_withinLimit h value).symm
  · refine ⟨_, ?_, Pattern.accepts_iff⟩
    show (left.eval row >>= fun value => value.likePattern ⟨pattern⟩) = _
    rw [hleft]
    rfl

/-- The percent sign stands for a line break, and the period for nothing
but itself. -/
theorem like_means_line_break :
    Pattern.WithinLimit "a%_." ∧
      (∃ fixed, Formula.like (.column 0) (.const (.string "a%_.")) = .ok fixed ∧
        fixed.eval [.string "A\nb.", .string "a%_."] = .ok (.boolean true)) ∧
      (Formula.binary .like (.column 0) (.column 1)).eval [.string "A\nb.", .string "a%_."] =
        .ok (.boolean true) := by
  have hlimit : Pattern.WithinLimit "a%_." := ⟨by cbv, by cbv⟩
  have hmatches : Pattern.Matches "a%_.".toList "A\nb.".toList := by
    refine ⟨[['A'], ['\n'], ['b'], ['.']], .cons ?_ (.cons (.any _) (.cons (.one 'b') (.cons ?_ .nil))),
      rfl⟩
    · exact .same (by decide) (by decide) (by decide)
    · exact .same (by decide) (by decide) (by decide)
  obtain ⟨fixed, hfixed, hrow, hvalue⟩ := like_means hlimit (.column 0)
  obtain ⟨b, hb, htrue⟩ := hvalue [.string "A\nb.", .string "a%_."] "A\nb." rfl
  rw [htrue.mpr hmatches] at hb
  exact ⟨hlimit, ⟨fixed, hfixed, hb⟩, (hrow (.column 1) _ rfl).symm.trans hb⟩

end Formula

end DialectDb
