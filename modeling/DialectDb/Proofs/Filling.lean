/-
Writing values into a text. In the tokens of a statement each
placeholder is replaced by the token of its parameter's value; question
marks are numbered from left to right. A value that has a token is read
back from it wherever an operand is.

The words of query hints are kept as text and never bound, so a
placeholder among them is not one. `hintsPlain` says that there is none.
-/
import DialectDb.Grammar.Expression

namespace DialectDb

-- =============================================================== tokens

/-- The token that a value is written as. A sign is a token of its own,
so negative numbers have none. -/
def Value.token? : Value → Option Token
  | .null => some (.keyword .NULL)
  | .boolean true => some (.keyword .TRUE)
  | .boolean false => some (.keyword .FALSE)
  | .integer i => if 0 ≤ i.toInt then some (.number (toString i.toInt.toNat)) else none
  | .float _ => none
  | .string s => some (.string s)

namespace Token

/-- The placeholder that a token is, after a number of question marks. -/
def placeholder? (ordinal : Nat) : Token → Option Placeholder
  | .parameter name => some (.named name)
  | .sign .question => some (.positional ordinal)
  | _ => none

def isPlaceholder : Token → Bool
  | .parameter _ | .sign .question => true
  | _ => false

/-- Whether a token is an operand by itself and has no other use, but
for the number of a type's argument and the NULL of a column. -/
def isValue : Token → Bool
  | .number _ | .string _ | .parameter _ | .sign .question => true
  | .keyword .NULL | .keyword .TRUE | .keyword .FALSE => true
  | _ => false

/-- What is written for a token after a number of question marks: for a
placeholder the token of its parameter's value, if there is one, and for
any other token itself. -/
def written? (ps : Parameters) (ordinal : Nat) (t : Token) : Option Token :=
  match t.placeholder? ordinal with
  | some placeholder => (ps.lookup? placeholder).bind Value.token?
  | none => some t

/-- The tokens with the values of parameters written for the
placeholders, after a number of question marks; none if one of them has
no parameter, or its value no token. -/
def fill? (ps : Parameters) : Nat → List Token → Option (List Token)
  | _, [] => some []
  | ordinal, t :: rest => do
    let u ← t.written? ps ordinal
    return u :: (← fill? ps (if t = Sign.question then ordinal + 1 else ordinal) rest)

/-- The placeholders among some tokens, after a number of question
marks. -/
def placeholders : Nat → List Token → List Placeholder
  | _, [] => []
  | ordinal, t :: rest =>
    (t.placeholder? ordinal).toList ++
      placeholders (if t = Sign.question then ordinal + 1 else ordinal) rest

/-- Whether a token is neither a value nor announces a name. -/
def isMark (t : Token) : Bool :=
  !t.isValue && t != .sign .period

/-- Whether no placeholder stands before the next closing parenthesis. -/
def wordsPlain (tokens : List Token) : Bool :=
  (tokens.takeWhile (· != .sign .closeParen)).all (!·.isPlaceholder)

/-- Whether no query hints among some tokens hold a placeholder. OPTION
with an opening parenthesis behind it opens query hints, unless it is a
name, as it is behind a period; the next closing parenthesis ends
them. -/
def hintsPlain : (named : Bool) → List Token → Bool
  | _, [] => true
  | named, t :: rest =>
    (named || t != .keyword .OPTION || rest.head? != some (.sign .openParen) || wordsPlain rest) &&
      hintsPlain (t = Sign.period) rest

/-- Whether no query hints of a statement hold a placeholder. Behind
CREATE TABLE stands a name as well. -/
def queryHintsPlain : List Token → Bool
  | .keyword .CREATE :: .keyword .TABLE :: rest => hintsPlain true rest
  | tokens => hintsPlain false tokens

/-- The tokens that are values, one by one. -/
@[elab_as_elim]
theorem isValue_cases {motive : (t : Token) → t.isValue → Prop}
    (number : ∀ text, motive (.number text) rfl) (string : ∀ text, motive (.string text) rfl)
    (parameter : ∀ name, motive (.parameter name) rfl) (question : motive (.sign .question) rfl)
    (null : motive (.keyword .NULL) rfl) (true : motive (.keyword .TRUE) rfl)
    (false : motive (.keyword .FALSE) rfl) (t : Token) (h : t.isValue) : motive t h := by
  have hvalue := h
  unfold isValue at hvalue
  split at hvalue
  · exact number _
  · exact string _
  · exact parameter _
  · exact question
  · exact null
  · exact true
  · exact false
  · cases hvalue

theorem isPlaceholder_eq (ordinal : Nat) (t : Token) :
    t.isPlaceholder = (t.placeholder? ordinal).isSome := by
  unfold isPlaceholder placeholder?
  split
  · rfl
  · rfl
  · rfl

theorem isValue_of_isPlaceholder {t : Token} (h : t.isPlaceholder) : t.isValue := by
  unfold isPlaceholder at h
  split at h
  · rfl
  · rfl
  · cases h

theorem wordsPlain_cons (t : Token) (tokens : List Token) :
    wordsPlain (t :: tokens) = (t == .sign .closeParen || (!t.isPlaceholder && wordsPlain tokens)) := by
  by_cases ht : t = .sign .closeParen
  · subst ht
    rfl
  · unfold wordsPlain
    rw [List.takeWhile_cons, if_pos (bne_iff_ne.mpr ht), List.all_cons, beq_eq_false_iff_ne.mpr ht,
      Bool.false_or]

theorem isMark_iff {t : Token} :
    t.isMark = true ↔ t.isValue = false ∧ t ≠ .sign .period := by
  unfold isMark
  rw [Bool.and_eq_true_iff, Bool.not_eq_true', bne_iff_ne]

theorem not_isPlaceholder_of_isMark {t : Token} (h : t.isMark) : ¬t.isPlaceholder := by
  intro hplaceholder
  have hvalue := isValue_of_isPlaceholder hplaceholder
  rw [(isMark_iff.mp h).1] at hvalue
  cases hvalue

end Token

-- ============================================================== filling

open Token

variable {ps : Parameters}

theorem Token.fill?_cons {ordinal : Nat} {t : Token} {tokens filled : List Token}
    (h : fill? ps ordinal (t :: tokens) = some filled) :
    ∃ u rest, filled = u :: rest ∧ t.written? ps ordinal = some u ∧
      fill? ps (if t = Sign.question then ordinal + 1 else ordinal) tokens = some rest := by
  unfold fill? at h
  obtain ⟨u, hu, h⟩ := Option.bind_eq_some_iff.mp h
  obtain ⟨rest, hrest, h⟩ := Option.bind_eq_some_iff.mp h
  cases h
  exact ⟨u, rest, rfl, hu, hrest⟩

/-- A token that is no placeholder stays. -/
theorem Token.fill?_cons_plain {ordinal : Nat} {t : Token} {tokens filled : List Token}
    (ht : ¬t.isPlaceholder) (h : fill? ps ordinal (t :: tokens) = some filled) :
    ∃ rest, filled = t :: rest ∧ fill? ps ordinal tokens = some rest := by
  obtain ⟨u, rest, rfl, hu, hrest⟩ := fill?_cons h
  have hnone : t.placeholder? ordinal = none := by
    rw [isPlaceholder_eq ordinal] at ht
    exact Option.not_isSome_iff_eq_none.mp ht
  have hquestion : t ≠ Sign.question := fun heq => ht (heq ▸ rfl)
  unfold written? at hu
  rw [hnone] at hu
  cases hu
  rw [if_neg hquestion] at hrest
  exact ⟨rest, rfl, hrest⟩

/-- For a placeholder a value is written. -/
theorem Token.written?_placeholder {ordinal : Nat} {t u : Token} {placeholder : Placeholder}
    (ht : t.placeholder? ordinal = some placeholder) (h : t.written? ps ordinal = some u) :
    ∃ v, ps.lookup? placeholder = some v ∧ v.token? = some u := by
  unfold written? at h
  rw [ht] at h
  exact Option.bind_eq_some_iff.mp h

theorem Token.fill?_length {ordinal : Nat} {tokens filled : List Token}
    (h : fill? ps ordinal tokens = some filled) : filled.length = tokens.length := by
  induction tokens generalizing ordinal filled with
  | nil =>
      cases h
      rfl
  | cons t tokens ih =>
      obtain ⟨u, rest, rfl, -, hrest⟩ := fill?_cons h
      rw [List.length_cons, List.length_cons, ih hrest]

/-- Values can be written for all placeholders iff each has a parameter
whose value has a token. -/
theorem Token.fill?_isSome_iff {ordinal : Nat} {tokens : List Token} :
    (fill? ps ordinal tokens).isSome ↔
      ∀ p ∈ placeholders ordinal tokens, ∃ v, ps.lookup? p = some v ∧ v.token?.isSome := by
  induction tokens generalizing ordinal with
  | nil => exact ⟨fun _ _ => nofun, fun _ => rfl⟩
  | cons t tokens ih =>
      have hfill : (fill? ps ordinal (t :: tokens)).isSome ↔ (t.written? ps ordinal).isSome ∧
          (fill? ps (if t = Sign.question then ordinal + 1 else ordinal) tokens).isSome := by
        rw [fill?.eq_2]
        cases t.written? ps ordinal with
        | none => simp
        | some u =>
            cases fill? ps (if t = Sign.question then ordinal + 1 else ordinal) tokens <;> simp
      have hwritten : (t.written? ps ordinal).isSome ↔ ∀ p, t.placeholder? ordinal = some p →
          ∃ v, ps.lookup? p = some v ∧ v.token?.isSome := by
        unfold written?
        cases t.placeholder? ordinal with
        | none => exact ⟨fun _ _ => nofun, fun _ => rfl⟩
        | some p => cases hlookup : ps.lookup? p <;> simp [hlookup]
      rw [hfill, ih, hwritten, placeholders.eq_2]
      simp only [List.mem_append, Option.mem_toList, or_imp, forall_and]

/-- Tokens without OPTION hold no query hints. -/
theorem Token.hintsPlain_of_option_not_mem {named : Bool} {tokens : List Token}
    (h : .keyword .OPTION ∉ tokens) : hintsPlain named tokens := by
  induction tokens generalizing named with
  | nil => rfl
  | cons t tokens ih =>
      rw [List.mem_cons, not_or] at h
      obtain ⟨hhead, htail⟩ := h
      unfold hintsPlain
      rw [bne_iff_ne.mpr (Ne.symm hhead), ih htail, Bool.or_true]
      rfl

theorem Token.queryHintsPlain_of_option_not_mem {tokens : List Token}
    (h : .keyword .OPTION ∉ tokens) : queryHintsPlain tokens := by
  unfold queryHintsPlain
  split
  · exact hintsPlain_of_option_not_mem fun hmem =>
      h (List.mem_cons_of_mem _ (List.mem_cons_of_mem _ hmem))
  · exact hintsPlain_of_option_not_mem h

/-- The token of a value is no placeholder, but a value. -/
theorem Value.isValue_of_token? {v : Value} {t : Token} (h : v.token? = some t) :
    t.isValue ∧ ¬t.isPlaceholder := by
  unfold token? at h
  split at h
  case h_4 =>
    split at h
    · cases h
      exact ⟨rfl, Bool.false_ne_true⟩
    · cases h
  all_goals cases h <;> exact ⟨rfl, Bool.false_ne_true⟩

-- ============================================================= operands

open Grammar

theorem digitsValue_toString (n : Nat) : Double.digitsValue (toString n).toList = n := by
  have hdigits : (toString n).toList = Nat.toDigits 10 n := by
    rw [Nat.toString_eq_repr, Nat.repr_eq_ofList_toDigits, String.toList_ofList]
  unfold Double.digitsValue
  rw [Double.valueInParts_eq, hdigits]
  exact Nat.ofDigitChars_toDigits (by decide) (by decide)

theorem isDigit_toString (n : Nat) : (toString n).toList.all Text.isDigit = true := by
  rw [Nat.toString_eq_repr, Nat.repr_eq_ofList_toDigits, String.toList_ofList, List.all_eq_true]
  intro c hc
  exact Nat.isDigit_of_mem_toDigits (by decide) (by decide) hc

/-- An integer is read from its digits. -/
theorem numberLiteral_toString {i : Int64} (h : 0 ≤ i.toInt) :
    numberLiteral (toString i.toInt.toNat) = pure (.literal (.integer i)) := by
  have hfits : (i.toInt.toNat : Int) ≤ Int64.maxValue.toInt := by
    rw [Int.toNat_of_nonneg h]
    exact Int64.toInt_le i
  have hvalue : Int64.ofNat i.toInt.toNat = i := by
    rw [← Int64.ofInt_eq_ofNat, Int.toNat_of_nonneg h, Int64.ofInt_toInt]
  unfold numberLiteral
  rw [if_pos (isDigit_toString _)]
  dsimp only
  rw [digitsValue_toString, if_pos hfits, hvalue]

end DialectDb
