/-
Where a token ends. A scanner looks at most one character ahead: what it
reads stays the same whatever comes behind, as long as the next character
stays the same, or is one that no token goes on with (`Follows`). Blanks
are such characters, and so are the openings of comments, commas and
parentheses.
-/
import DialectDb.Proofs.Spelling

namespace DialectDb.Lexer

open Text

variable {rules : LexicalRules}

-- ============================================================== breaks

/-- A character with which no token goes on, whatever the token. -/
def breaks (c : Char) : Bool :=
  isBlank c || ['/', '#', ',', '(', ')'].contains c

theorem ne_of_breaks {c d : Char} (h : breaks c = true) (hd : breaks d = false) : c ≠ d := by
  rintro rfl
  rw [h] at hd
  cases hd

/-- No code is in a span of both tables. -/
theorem not_holds_of_disjoint {spans others : Unicode.Spans}
    (hapart : (spans.all fun a => others.all fun b => a.2 < b.1 || b.2 < a.1) = true) {code : Nat}
    (h : spans.holds code = true) : others.holds code = false := by
  obtain ⟨a, ha, hin⟩ := List.any_eq_true.mp h
  refine List.any_eq_false.mpr fun b hb hother => ?_
  have hdisjoint := List.all_eq_true.mp (List.all_eq_true.mp hapart a ha) b hb
  simp only [Bool.and_eq_true, Bool.or_eq_true, decide_eq_true_eq] at hin hother hdisjoint
  omega

/-- What holds of the ASCII codes holds of the characters. -/
theorem forall_ascii {p : Char → Prop} (h : ∀ n < 128, p (.ofNat n)) {c : Char}
    (hc : c.val < 128) : p c := by
  have hcode := h c.toNat hc
  rwa [Char.ofNat_toNat] at hcode

theorem ascii_of_isDigit {c : Char} (h : isDigit c = true) : c.val < 128 := by
  have hrange : '0' ≤ c ∧ c ≤ '9' := by simpa [isDigit] using h
  exact UInt32.lt_of_le_of_lt hrange.2 (by decide)

/-- No word goes on there. -/
theorem isLetterOrNumber_of_breaks {c : Char} (h : breaks c = true) :
    isLetterOrNumber c = false := by
  by_cases hascii : c.val < 128
  · have hc := forall_ascii (p := fun c => breaks c = true → c.isAlphanum = false)
      (by decide) hascii
    rw [isLetterOrNumber, if_pos hascii, hc h]
  · have hblank : Unicode.whiteSpace.holds c.toNat = true := by
      rcases Bool.or_eq_true_iff.mp h with hblank | hmark
      · rwa [isBlank, if_neg hascii] at hblank
      · have hmem : c ∈ ['/', '#', ',', '(', ')'] := by simpa using hmark
        have hmarks : (['/', '#', ',', '(', ')'].all fun d => d.val < 128) = true := by decide
        exact absurd (of_decide_eq_true (List.all_eq_true.mp hmarks c hmem)) hascii
    have hletter : Unicode.alphabetic.holds c.toNat = false :=
      not_holds_of_disjoint (by decide +kernel) hblank
    have hnumber : Unicode.numeric.holds c.toNat = false :=
      not_holds_of_disjoint (by decide +kernel) hblank
    rw [isLetterOrNumber, if_neg hascii, hletter, hnumber]
    rfl

theorem continuesWord_of_breaks {c : Char} (h : breaks c = true) : continuesWord c = false := by
  simp [continuesWord, isLetterOrNumber_of_breaks h, ne_of_breaks h (d := '_') rfl,
    ne_of_breaks h (d := '$') rfl]

theorem continuesParameter_of_breaks {c : Char} (h : breaks c = true) :
    continuesParameter c = false := by
  simp [continuesParameter, isLetterOrNumber_of_breaks h, ne_of_breaks h (d := '_') rfl]

theorem isDigit_of_breaks {c : Char} (h : breaks c = true) : isDigit c = false := by
  by_contra hdigit
  have hdigit : isDigit c = true := by simpa using hdigit
  have hc := forall_ascii (p := fun c => breaks c = true → isDigit c = false) (by decide)
    (ascii_of_isDigit hdigit)
  rw [hdigit] at hc
  cases hc h

-- ============================================================= follows

/-- A rest of the text that can take the place of another: it goes on
with the same character, or with none that a token goes on with. -/
def Follows (rest rest' : List Char) : Prop :=
  rest'.head? = rest.head? ∨ ∀ d ∈ rest'.head?, breaks d = true

/-- What does not stand at the beginning of the one does not stand at that
of the other. -/
theorem Follows.head {rest rest' : List Char} (h : Follows rest rest') {p : Char → Prop}
    (hp : ∀ c, breaks c = true → ¬p c) (hrest : ∀ c ∈ rest.head?, ¬p c) :
    ∀ c ∈ rest'.head?, ¬p c := by
  intro c hc
  rcases h with hsame | hbreaks
  · exact hrest c (hsame ▸ hc)
  · exact hp c (hbreaks c hc)

theorem Follows.head_ne {rest rest' : List Char} (h : Follows rest rest') {d : Char}
    (hd : breaks d = false) (hrest : rest.head? ≠ some d) : rest'.head? ≠ some d := by
  rcases h with hsame | hbreaks
  · rwa [hsame]
  · intro hhead
    rw [hbreaks d hhead] at hd
    cases hd

/-- A beginning of the text is read, in the same way with another rest
behind it. -/
def Local {m : Type → Type} [Pure m] {α : Type} (read : List Char → m (Reading α))
    (text : List Char) (r : Reading α) : Prop :=
  ∃ passed, passed ≠ [] ∧ text = passed ++ r.rest ∧
    ∀ rest', Follows r.rest rest' → read (passed ++ rest') = pure { r with rest := rest' }

/-- What goes before both makes no difference. -/
theorem Follows.behind {rest rest' : List Char} (h : Follows rest rest') (passed : List Char) :
    Follows (passed ++ rest) (passed ++ rest') := by
  cases passed with
  | nil => exact h
  | cons c passed => exact .inl rfl

theorem span_append_self (p : Char → Bool) (text : List Char) :
    (text.span p).1 ++ (text.span p).2 = text := by
  simp [List.span_eq_takeWhile_dropWhile]

theorem span_follows {p : Char → Bool} (hp : ∀ c, breaks c = true → p c = false)
    (text : List Char) {rest' : List Char} (h : Follows (text.span p).2 rest') :
    ((text.span p).1 ++ rest').span p = ((text.span p).1, rest') := by
  refine span_append ?_ ?_
  · rw [List.span_eq_takeWhile_dropWhile]
    exact List.all_takeWhile
  · have hhead := h.head (p := (p · = true)) (fun c hc => by simp [hp c hc]) fun c hc => ?_
    · simpa using hhead
    · rw [List.span_eq_takeWhile_dropWhile] at hc
      have hstop := List.head?_dropWhile_not p text
      rw [Option.mem_def.mp hc] at hstop
      simpa using hstop

/-- A word of characters of a kind that a text begins with. -/
theorem span_local {p : Char → Bool} (hp : ∀ c, breaks c = true → p c = false) {c : Char}
    (hc : p c = true) (rest : List Char) :
    ∃ word after, (c :: rest).span p = (c :: word, after) ∧ c :: rest = c :: word ++ after ∧
      ∀ rest', Follows after rest' → (c :: word ++ rest').span p = (c :: word, rest') := by
  have hspan : (c :: rest).span p = (c :: rest.takeWhile p, rest.dropWhile p) := by
    rw [List.span_eq_takeWhile_dropWhile, List.takeWhile_cons_of_pos hc,
      List.dropWhile_cons_of_pos hc]
  refine ⟨_, _, hspan, by simp, fun rest' hrest' => ?_⟩
  have hfollows : Follows ((c :: rest).span p).2 rest' → _ := span_follows hp (c :: rest)
  rw [hspan] at hfollows
  exact hfollows hrest'

-- ============================================================ scanners

theorem stringContent_local {backslashes : Bool} {quote : Char} (hquote : breaks quote = false)
    {text : List Char} {r : Reading (List Char)}
    (h : stringContent backslashes quote text = some r) :
    Local (stringContent backslashes quote) text r := by
  have hclose : ∀ rest rest', rest.head? ≠ some quote → Follows rest rest' →
      stringContent backslashes quote (quote :: rest') = some ⟨[], quote.utf8Size, rest'⟩ := by
    intro rest rest' hrest hfollows
    have hother := hfollows.head_ne hquote hrest
    cases rest' with
    | nil => simp [stringContent]
    | cons d rest' =>
        have hd : d ≠ quote := fun heq => hother (congrArg some heq)
        simp [stringContent, hd]
  fun_induction stringContent backslashes quote text generalizing r
  all_goals try cases h
  case case2 => exact ⟨[quote], by simp, rfl, fun rest' hrest' => hclose [] rest' (by simp) hrest'⟩
  case case4 rest ih =>
    obtain ⟨content, hcontent, rfl⟩ := Option.map_eq_some_iff.mp h
    obtain ⟨passed, -, rfl, hread⟩ := ih hcontent
    refine ⟨quote :: quote :: passed, by simp, rfl, fun rest' hrest' => ?_⟩
    simp [stringContent, hread rest' hrest', Reading.cons]
  case case5 d rest hd =>
    exact ⟨[quote], by simp, rfl, fun rest' hrest' =>
      hclose (d :: rest) rest' (by simpa using hd) hrest'⟩
  case case6 c d rest hc hbackslash ih =>
    obtain ⟨content, hcontent, rfl⟩ := Option.map_eq_some_iff.mp h
    obtain ⟨passed, -, rfl, hread⟩ := ih hcontent
    refine ⟨c :: d :: passed, by simp, rfl, fun rest' hrest' => ?_⟩
    simp [stringContent, hc, hbackslash, hread rest' hrest', Reading.cons]
  case case7 c d rest hc hbackslash ih =>
    obtain ⟨content, hcontent, rfl⟩ := Option.map_eq_some_iff.mp h
    obtain ⟨passed, hpassed, heq, hread⟩ := ih hcontent
    obtain ⟨e, passed, rfl⟩ := List.exists_cons_of_ne_nil hpassed
    refine ⟨c :: e :: passed, by simp, by rw [heq]; rfl, fun rest' hrest' => ?_⟩
    have hread := hread rest' hrest'
    rw [List.cons_append] at hread
    simp [stringContent, hc, hbackslash, hread, Reading.cons]

theorem identifierContent_local {close : Char} (hclose : breaks close = false)
    {text : List Char} {r : Reading (List Char)} (h : identifierContent close text = some r) :
    Local (identifierContent close) text r := by
  have hsame : identifierContent close = stringContent false close :=
    funext (identifierContent_eq close)
  rw [hsame] at h ⊢
  exact stringContent_local hclose h

theorem scanString_local {quote : Char} (hquote : breaks quote = false) {text : List Char}
    {r : Reading Token} (h : scanString rules quote text = .ok r) :
    Local (scanString rules quote) text r := by
  unfold scanString at h
  split at h
  · cases h
  · next content hcontent =>
      cases h
      obtain ⟨passed, hpassed, heq, hread⟩ := stringContent_local hquote hcontent
      refine ⟨passed, hpassed, heq, fun rest' hrest' => ?_⟩
      rw [scanString, hread rest' hrest']
      rfl

theorem scanIdentifier_local {close : Char} (hclose : breaks close = false) {text : List Char}
    {r : Reading Token} (h : scanIdentifier close text = .ok r) :
    Local (scanIdentifier close) text r := by
  unfold scanIdentifier at h
  split at h
  · cases h
  · cases h
  · next content size rest hnil hcontent =>
      cases h
      obtain ⟨passed, hpassed, heq, hread⟩ := identifierContent_local hclose hcontent
      refine ⟨passed, hpassed, heq, fun rest' hrest' => ?_⟩
      rw [scanIdentifier, hread rest' hrest']
      split
      · next hnone => cases hnone
      · next hempty =>
          cases hempty
          exact (hnil rfl).elim
      · next hsome =>
          cases hsome
          rfl

theorem scanParameter_local {mark : Char} {text : List Char} {r : Reading Token}
    (h : scanParameter mark text = .ok r) : Local (scanParameter mark) text r := by
  cases text with
  | nil => cases h
  | cons c rest =>
      unfold scanParameter at h
      dsimp only at h
      split at h
      · next hc =>
          obtain ⟨word, after, hspan, htext, hread⟩ := span_local
            (fun _ => continuesParameter_of_breaks) (continuesParameter_of_startsWord hc) rest
          rw [hspan] at h
          cases h
          refine ⟨c :: word, List.cons_ne_nil _ _, htext, fun rest' hrest' => ?_⟩
          unfold scanParameter
          rw [List.cons_append]
          dsimp only
          rw [if_pos hc, ← List.cons_append, hread rest' hrest']
          rfl
      · cases h

/-- The token that a word is. -/
def wordToken (letters : List Char) : Token :=
  let word := String.ofList (letters.flatMap lowerChar)
  match Keyword.ofWord? word with
  | some keyword => .keyword keyword
  | none => .ident word

theorem scanWord_eq (text : List Char) :
    scanWord text = .ok ⟨wordToken (text.span continuesWord).1,
      byteSize (text.span continuesWord).1, (text.span continuesWord).2⟩ := by
  unfold scanWord wordToken
  dsimp only
  generalize Keyword.ofWord? _ = keyword?
  cases keyword? <;> rfl

theorem scanWord_local {c : Char} {rest : List Char} {r : Reading Token}
    (hc : continuesWord c = true) (h : scanWord (c :: rest) = .ok r) :
    Local scanWord (c :: rest) r := by
  obtain ⟨word, after, hspan, htext, hread⟩ :=
    span_local (fun _ => continuesWord_of_breaks) hc rest
  rw [scanWord_eq, hspan] at h
  cases h
  refine ⟨c :: word, List.cons_ne_nil _ _, htext, fun rest' hrest' => ?_⟩
  rw [scanWord_eq, hread rest' hrest']
  rfl

theorem spanFraction_of_ne {text : List Char} (h : text.head? ≠ some '.') :
    spanFraction text = ([], text) := by
  unfold spanFraction
  split
  · exact absurd rfl h
  · rfl

theorem spanFraction_follows {text rest' : List Char} (h : Follows (spanFraction text).2 rest') :
    spanFraction ((spanFraction text).1 ++ rest') = ((spanFraction text).1, rest') := by
  by_cases hpoint : text.head? = some '.'
  · obtain ⟨rest, rfl⟩ : ∃ rest, text = '.' :: rest := by
      cases text with
      | nil => cases hpoint
      | cons c rest =>
          cases hpoint
          exact ⟨rest, rfl⟩
    have hspan := span_follows (fun _ => isDigit_of_breaks) rest h
    simp only [spanFraction, List.cons_append, hspan]
  · rw [spanFraction_of_ne hpoint] at h ⊢
    exact spanFraction_of_ne (h.head_ne rfl hpoint)

/-- The sign at the beginning of a text, if any. -/
def spanSign : List Char → List Char × List Char
  | '+' :: rest => (['+'], rest)
  | '-' :: rest => (['-'], rest)
  | rest => ([], rest)

theorem spanExponent_mark {mark : Char} (hmark : mark = 'e' ∨ mark = 'E') (text : List Char) :
    spanExponent (mark :: text) =
      (mark :: ((spanSign text).1 ++ ((spanSign text).2.span isDigit).1),
        ((spanSign text).2.span isDigit).2) := by
  rcases hmark with rfl | rfl <;> rfl

theorem spanExponent_of_not_mark {text : List Char}
    (h : ∀ c ∈ text.head?, ¬(c = 'e' ∨ c = 'E')) : spanExponent text = ([], text) := by
  cases text with
  | nil => rfl
  | cons c text =>
      have hc := h c rfl
      rw [not_or] at hc
      simp [spanExponent, hc.1, hc.2]

theorem spanSign_of_not_sign {text : List Char}
    (h : ∀ c ∈ text.head?, ¬(c = '+' ∨ c = '-')) : spanSign text = ([], text) := by
  unfold spanSign
  split
  · exact absurd (.inl rfl) (h _ rfl)
  · exact absurd (.inr rfl) (h _ rfl)
  · rfl

theorem spanSign_follows {text rest' : List Char} (h : Follows (spanSign text).2 rest') :
    spanSign ((spanSign text).1 ++ rest') = ((spanSign text).1, rest') := by
  by_cases hsign : ∃ c ∈ text.head?, c = '+' ∨ c = '-'
  · obtain ⟨c, hc, hsign⟩ := hsign
    cases text with
    | nil => cases hc
    | cons d text =>
        cases hc
        rcases hsign with rfl | rfl <;> rfl
  · have hnone : ∀ c ∈ text.head?, ¬(c = '+' ∨ c = '-') :=
      fun c hc hsign' => hsign ⟨c, hc, hsign'⟩
    rw [spanSign_of_not_sign hnone] at h ⊢
    refine spanSign_of_not_sign (h.head (fun c hc => ?_) hnone)
    exact not_or.mpr ⟨ne_of_breaks hc rfl, ne_of_breaks hc rfl⟩

theorem spanExponent_follows {text rest' : List Char} (h : Follows (spanExponent text).2 rest') :
    spanExponent ((spanExponent text).1 ++ rest') = ((spanExponent text).1, rest') := by
  by_cases hmark : ∃ c ∈ text.head?, c = 'e' ∨ c = 'E'
  · obtain ⟨mark, hmem, hmark⟩ := hmark
    cases text with
    | nil => cases hmem
    | cons c text =>
        cases hmem
        rw [spanExponent_mark hmark] at h ⊢
        have hdigits := span_follows (fun _ => isDigit_of_breaks) _ h
        have hsign := h.behind ((spanSign text).2.span isDigit).1
        rw [span_append_self] at hsign
        rw [List.cons_append, spanExponent_mark hmark, List.append_assoc, spanSign_follows hsign,
          hdigits]
  · have hnone : ∀ c ∈ text.head?, ¬(c = 'e' ∨ c = 'E') :=
      fun c hc hmark' => hmark ⟨c, hc, hmark'⟩
    rw [spanExponent_of_not_mark hnone] at h ⊢
    refine spanExponent_of_not_mark (h.head (fun c hc => ?_) hnone)
    exact not_or.mpr ⟨ne_of_breaks hc rfl, ne_of_breaks hc rfl⟩

theorem scanNumber_local {c : Char} {rest : List Char} {r : Reading Token}
    (hc : isDigit c = true) (h : scanNumber (c :: rest) = .ok r) :
    Local scanNumber (c :: rest) r := by
  obtain ⟨digits, after, hspan, htext, hread⟩ := span_local (fun _ => isDigit_of_breaks) hc rest
  rw [scanNumber_eq] at h
  simp only [hspan] at h
  cases h
  refine ⟨c :: digits ++ (spanFraction after).1 ++ (spanExponent (spanFraction after).2).1,
    by simp, ?_, fun rest' hrest' => ?_⟩
  · rw [List.append_assoc, List.append_assoc, spanExponent_append, spanFraction_append, htext]
  · have hexponent := hrest'.behind (spanExponent (spanFraction after).2).1
    rw [spanExponent_append] at hexponent
    have hfraction := hexponent.behind (spanFraction after).1
    rw [spanFraction_append] at hfraction
    rw [scanNumber_eq, List.append_assoc, List.append_assoc]
    simp only [hread _ hfraction, spanFraction_follows hexponent, spanExponent_follows hrest']
    rfl

/-- A text does not begin with a character. -/
theorem head?_ne {rest : List Char} {d : Char} (h : ∀ tail, rest = d :: tail → False) :
    rest.head? ≠ some d := by
  cases rest with
  | nil => nofun
  | cons c rest =>
      rintro ⟨⟩
      exact h rest rfl

theorem signAt?_greater {rest : List Char} (hequal : rest.head? ≠ some '=') :
    signAt? ('>' :: rest) = some ⟨.greater, 1, rest⟩ := by
  cases rest with
  | nil => rfl
  | cons c rest => simp_all [signAt?]

theorem signAt?_less {rest : List Char} (hgreater : rest.head? ≠ some '>')
    (hequal : rest.head? ≠ some '=') : signAt? ('<' :: rest) = some ⟨.less, 1, rest⟩ := by
  cases rest with
  | nil => rfl
  | cons c rest => simp_all [signAt?]

theorem signAt?_local {text : List Char} {r : Reading Sign} (h : signAt? text = some r) :
    Local signAt? text r := by
  unfold signAt? at h
  split at h
  case h_9 hequal =>
    cases h
    exact ⟨['>'], List.cons_ne_nil _ _, rfl, fun rest' hrest' =>
      signAt?_greater (hrest'.head_ne rfl (head?_ne hequal))⟩
  case h_10 hgreater hequal =>
    cases h
    exact ⟨['<'], List.cons_ne_nil _ _, rfl, fun rest' hrest' =>
      signAt?_less (hrest'.head_ne rfl (head?_ne hgreater))
        (hrest'.head_ne rfl (head?_ne hequal))⟩
  -- no other sign is the beginning of a longer one
  all_goals cases h
  all_goals first
    | exact ⟨[_], List.cons_ne_nil _ _, rfl, fun _ _ => rfl⟩
    | exact ⟨[_, _], List.cons_ne_nil _ _, rfl, fun _ _ => rfl⟩

-- =============================================================== tokens

/-- A digit opens nothing but a number. -/
theorem scan_of_isDigit {c : Char} (h : isDigit c = true) (rest : List Char) :
    scan rules c rest = scanNumber (c :: rest) := by
  have hmarks := ne_of_marks (show marks.all (!isDigit ·) = true by decide) h
  simp only [marks, List.forall_mem_cons] at hmarks
  obtain ⟨-, -, -, hquote, hdouble, hbacktick, hbracket, hat, hcolon, -⟩ := hmarks
  simp [scan, hquote, hdouble, hbacktick, hbracket, hat, hcolon, h]

theorem isDigit_of_startsWord {c : Char} (h : startsWord c = true) : isDigit c = false := by
  by_contra hdigit
  have hdigit : isDigit c = true := by simpa using hdigit
  have hc := forall_ascii (p := fun c => startsWord c = true → isDigit c = false) (by decide)
    (ascii_of_isDigit hdigit)
  rw [hdigit] at hc
  cases hc h

/-- What a word starts with opens nothing but a word. -/
theorem scan_of_startsWord {c : Char} (h : startsWord c = true) (rest : List Char) :
    scan rules c rest = scanWord (c :: rest) := by
  have hmarks := ne_of_marks (show marks.all (!startsWord ·) = true by decide) h
  simp only [marks, List.forall_mem_cons] at hmarks
  obtain ⟨-, -, -, hquote, hdouble, hbacktick, hbracket, hat, hcolon, -⟩ := hmarks
  simp [scan, hquote, hdouble, hbacktick, hbracket, hat, hcolon, h, isDigit_of_startsWord h]

theorem continuesWord_of_startsWord {c : Char} (h : startsWord c = true) :
    continuesWord c = true := by
  have hparameter := continuesParameter_of_startsWord h
  unfold continuesParameter at hparameter
  simp [continuesWord, hparameter]

/-- A token is read whatever it is, in the same way with another rest
behind it. -/
def ScansLocally (rules : LexicalRules) (c : Char) (rest : List Char) (r : Reading Token) : Prop :=
  ∃ passed, rest = passed ++ r.rest ∧
    ∀ rest', Follows r.rest rest' → scan rules c (passed ++ rest') = .ok { r with rest := rest' }

variable {c : Char} {rest : List Char} {r : Reading Token}

/-- What a character opens is scanned from behind it. -/
theorem scansLocally_of_opened {scanner : List Char → Scanned}
    (hscan : ∀ rest', scan rules c rest' = (scanner rest').map (.after c.utf8Size))
    (hlocal : ∀ inner, scanner rest = .ok inner → Local scanner rest inner)
    (h : scan rules c rest = .ok r) : ScansLocally rules c rest r := by
  rw [hscan] at h
  cases hread : scanner rest with
  | error fault =>
      rw [hread] at h
      cases h
  | ok inner =>
      rw [hread] at h
      cases h
      obtain ⟨passed, -, htext, hread⟩ := hlocal inner hread
      refine ⟨passed, htext, fun rest' hrest' => ?_⟩
      rw [hscan, hread rest' hrest']
      rfl

/-- A character that is scanned itself. -/
theorem scansLocally_of_begun {scanner : List Char → Scanned}
    (hscan : ∀ rest', scan rules c rest' = scanner (c :: rest'))
    (hlocal : scanner (c :: rest) = .ok r → Local scanner (c :: rest) r)
    (h : scan rules c rest = .ok r) : ScansLocally rules c rest r := by
  rw [hscan] at h
  obtain ⟨passed, hpassed, htext, hread⟩ := hlocal h
  obtain ⟨d, passed, rfl⟩ := List.exists_cons_of_ne_nil hpassed
  obtain ⟨rfl, hrest⟩ := List.cons.inj htext
  refine ⟨passed, hrest, fun rest' hrest' => ?_⟩
  rw [hscan]
  exact hread rest' hrest'

/-- A sign, or what is wrong where there is none. -/
def scanSign (fault : Malformed) (text : List Char) : Scanned :=
  match signAt? text with
  | some sign => .ok { sign with value := .sign sign.value }
  | none => .error fault

theorem scanSign_local {text : List Char} {r : Reading Token} {fault : Malformed}
    (h : scanSign fault text = .ok r) : Local (scanSign fault) text r := by
  unfold scanSign at h
  split at h
  · next sign hsign =>
      cases h
      obtain ⟨passed, hpassed, htext, hread⟩ := signAt?_local hsign
      refine ⟨passed, hpassed, htext, fun rest' hrest' => ?_⟩
      rw [scanSign, hread rest' hrest']
      rfl
  · cases h

/-- The scanner that reads the tokens which a character begins. -/
inductive ScannedBy (rules : LexicalRules) (c : Char) : Prop
  | string (hquote : breaks c = false)
      (h : ∀ rest, scan rules c rest = (scanString rules c rest).map (.after c.utf8Size))
  | ident {close : Char} (hclose : breaks close = false)
      (h : ∀ rest, scan rules c rest = (scanIdentifier close rest).map (.after c.utf8Size))
  | parameter (h : ∀ rest, scan rules c rest = (scanParameter c rest).map (.after c.utf8Size))
  | number (hdigit : isDigit c = true) (h : ∀ rest, scan rules c rest = scanNumber (c :: rest))
  | word (hstarts : startsWord c = true) (h : ∀ rest, scan rules c rest = scanWord (c :: rest))
  | sign (h : ∀ rest, scan rules c rest = scanSign (.unexpectedCharacter c) (c :: rest))

/-- Which scanner it is depends on the character alone. -/
theorem scannedBy (rules : LexicalRules) (c : Char) : ScannedBy rules c := by
  by_cases hquote : c = '\''
  · subst hquote
    exact .string rfl fun _ => rfl
  by_cases hdouble : c = '"'
  · subst hdouble
    cases hstrings : rules.doubleQuoteStrings with
    | true => exact .string rfl fun _ => by simp [scan, hstrings]
    | false => exact @ScannedBy.ident _ _ '"' rfl fun _ => by simp [scan, hstrings]
  by_cases hbacktick : c = '`' ∧ rules.backtickIdentifiers = true
  · obtain ⟨rfl, hallowed⟩ := hbacktick
    exact @ScannedBy.ident _ _ '`' rfl fun _ => by simp [scan, hallowed]
  by_cases hbracket : c = '[' ∧ rules.bracketIdentifiers = true
  · obtain ⟨rfl, hallowed⟩ := hbracket
    exact @ScannedBy.ident _ _ ']' rfl fun _ => by simp [scan, hallowed]
  by_cases hparameter : c = '@' ∨ c = ':'
  · refine .parameter fun _ => ?_
    rcases hparameter with rfl | rfl <;> rfl
  by_cases hdigit : isDigit c = true
  · exact .number hdigit (scan_of_isDigit hdigit)
  by_cases hword : startsWord c = true
  · exact .word hword (scan_of_startsWord hword)
  · refine .sign fun rest => ?_
    simp only [scan, Bool.and_eq_true, decide_eq_true_eq, Bool.or_eq_true, hquote, hdouble,
      hbacktick, hbracket, hparameter, hdigit, hword, reduceIte]
    rfl

/-- A token is read, in the same way with another rest behind it. -/
theorem scan_local (h : scan rules c rest = .ok r) : ScansLocally rules c rest r := by
  cases scannedBy rules c with
  | string hquote hscan =>
      exact scansLocally_of_opened hscan (fun _ => scanString_local hquote) h
  | ident hclose hscan =>
      exact scansLocally_of_opened hscan (fun _ => scanIdentifier_local hclose) h
  | parameter hscan => exact scansLocally_of_opened hscan (fun _ => scanParameter_local) h
  | number hdigit hscan => exact scansLocally_of_begun hscan (scanNumber_local hdigit) h
  | word hstarts hscan =>
      exact scansLocally_of_begun hscan (scanWord_local (continuesWord_of_startsWord hstarts)) h
  | sign hscan => exact scansLocally_of_begun hscan scanSign_local h

end DialectDb.Lexer
