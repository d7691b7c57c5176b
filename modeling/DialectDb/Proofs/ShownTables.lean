/-
A table as it is printed is parsed as CREATE TABLE. The text is cut into
the tokens of its columns (`Table.tokens`), and each column is read from
its tokens up to the comma or the parenthesis behind them: its name, its
type, and whatever constraints there are, in the order of their printing.
A default is read as an expression of at most one operator, since a
negative number is printed with a minus before it.
-/
import DialectDb.Proofs.RoundTrip
import DialectDb.Proofs.ShownTokens

namespace DialectDb

open Lexer

-- ================================================================= tokens

namespace Column

variable (c : Column)

def keyTokens : List Token :=
  if c.primaryKey then [.keyword .PRIMARY, .keyword .KEY]
  else if c.nullable then [] else [.keyword .NOT, .keyword .NULL]

def defaultTokens : Option Value → List Token
  | none | some .null => []
  | some v => .keyword .DEFAULT :: v.shownTokens

def uniqueTokens : List Token :=
  if c.unique then [.keyword .UNIQUE] else []

/-- The name of a type in lower case. -/
def typeName : DataType → String
  | .boolean => "boolean"
  | .integer => "integer"
  | .float => "float"
  | .string => "string"

/-- The tokens that a column is printed as. -/
def tokens : List Token :=
  .ident (readName c.name) :: .ident (typeName c.type) ::
    (c.keyTokens ++ (defaultTokens c.default ++ c.uniqueTokens))

/-- What a column has to be for its printed form to be read as it. -/
structure IsShown (rules : LexicalRules) (c : Column) : Prop where
  /-- A name between double quotes is not read as a string. -/
  quotes : writtenPlain c.name = false → rules.doubleQuoteStrings = false
  /-- A name without quotes is put into lower case, which makes no
  difference to it. -/
  letters : Text.sameName (readName c.name) c.name = true
  default : ∀ v ∈ c.default, v.IsShown rules

instance (rules : LexicalRules) : DecidablePred (IsShown rules) := fun c =>
  decidable_of_iff
    ((writtenPlain c.name = false → rules.doubleQuoteStrings = false) ∧
      Text.sameName (readName c.name) c.name = true ∧ ∀ v ∈ c.default, v.IsShown rules)
    ⟨fun h => ⟨h.1, h.2.1, h.2.2⟩, fun h => ⟨h.quotes, h.letters, h.default⟩⟩

/-- A name in ASCII is the same in lower case. -/
theorem sameName_readName {name : String} (h : ∀ c ∈ name.toList, c.val < 128) :
    Text.sameName (readName name) name = true := by
  have hlower : name.toList.flatMap Text.lowerChar = name.toList.map Char.toLower := by
    rw [List.map_eq_flatMap]
    exact List.flatMap_congr fun c hc => if_pos (h c hc)
  rw [Text.sameName_iff]
  unfold readName
  split
  · unfold Text.nameKey
    rw [String.toList_ofList, hlower, List.map_map]
    refine List.map_congr_left fun c hc => ?_
    exact forall_ascii (p := fun c => c.toLower.toLower = c.toLower) (by decide) (h c hc)
  · rfl

end Column

/-- The tokens that a table is printed as. -/
def Table.tokens (t : Table) : List Token :=
  .keyword .CREATE :: .keyword .TABLE :: .ident (readName t.name) ::
    inParentheses (commaSeparated (t.columns.map Column.tokens))

/-- What a table has to be for its printed form to be read as it. -/
structure Table.IsShown (rules : LexicalRules) (t : Table) : Prop where
  quotes : writtenPlain t.name = false → rules.doubleQuoteStrings = false
  columns : ∀ c ∈ t.columns, c.IsShown rules

instance (rules : LexicalRules) : DecidablePred (Table.IsShown rules) := fun t =>
  decidable_of_iff
    ((writtenPlain t.name = false → rules.doubleQuoteStrings = false) ∧
      ∀ c ∈ t.columns, c.IsShown rules)
    ⟨fun h => ⟨h.1, h.2⟩, fun h => ⟨h.quotes, h.columns⟩⟩

-- ================================================================ lexing

section

variable {rules : LexicalRules}

/-- A piece of text that can stand behind any other: it is cut into these
tokens, and no token goes on with its first character. -/
structure Continues (rules : LexicalRules) (text : String) (tokens : List Token) : Prop where
  lexes : Lexes rules text.toList tokens
  breaks : ∀ c ∈ text.toList.head?, breaks c = true

/-- Behind any piece stands one that can. -/
theorem Lexer.Lexes.then {a b : String} {s t : List Token} (ha : Lexes rules a.toList s)
    (hb : Continues rules b t) : Lexes rules (a ++ b).toList (s ++ t) := by
  rw [String.toList_append]
  exact ha.append hb.lexes hb.breaks

namespace Continues

theorem nil : Continues rules "" [] :=
  ⟨.nil, nofun⟩

theorem spaced {space text : String} {c : Char} (hspace : space.toList = [c])
    (hc : Text.isBlank c = true) {tokens : List Token} (h : Lexes rules text.toList tokens) :
    Continues rules (space ++ text) tokens := by
  constructor
  · rw [String.toList_append, hspace]
    exact h.blank hc
  · rw [String.toList_append, hspace]
    rintro _ ⟨⟩
    rw [Lexer.breaks, hc]
    rfl

theorem blank {text : String} {tokens : List Token} (h : Lexes rules text.toList tokens) :
    Continues rules (" " ++ text) tokens :=
  h |> spaced (c := ' ') rfl rfl

theorem newline {text : String} {tokens : List Token} (h : Lexes rules text.toList tokens) :
    Continues rules ("\n" ++ text) tokens :=
  h |> spaced (c := '\n') rfl rfl

theorem append {a b : String} {s t : List Token} (ha : Continues rules a s)
    (hb : Continues rules b t) : Continues rules (a ++ b) (s ++ t) := by
  refine ⟨ha.lexes.then hb, ?_⟩
  intro c hc
  rw [String.toList_append] at hc
  cases hchars : a.toList with
  | nil =>
      rw [hchars] at hc
      exact hb.breaks c hc
  | cons d chars =>
      rw [hchars] at hc
      exact ha.breaks c (hchars ▸ hc)

theorem word (word : Keyword) : Continues rules (" " ++ word.text) [.keyword word] :=
  blank (lexes_keyword word)

theorem key (c : Column) :
    Continues rules
      (if c.primaryKey then " PRIMARY KEY" else if c.nullable then "" else " NOT NULL")
      c.keyTokens := by
  have hprimary : Continues rules " PRIMARY KEY" [.keyword .PRIMARY, .keyword .KEY] :=
    (word .PRIMARY).append (word .KEY)
  have hnotNull : Continues rules " NOT NULL" [.keyword .NOT, .keyword .NULL] :=
    (word .NOT).append (word .NULL)
  unfold Column.keyTokens
  cases c.primaryKey with
  | true => exact hprimary
  | false =>
      cases c.nullable with
      | true => exact nil
      | false => exact hnotNull

theorem default {value? : Option Value} (h : ∀ v ∈ value?, v.IsShown rules) :
    Continues rules (Table.defaultText value?) (Column.defaultTokens value?) := by
  have hvalue {v : Value} (hv : v.IsShown rules) :
      Continues rules (" DEFAULT" ++ (" " ++ v.shown)) (.keyword .DEFAULT :: v.shownTokens) :=
    (word .DEFAULT).append (blank (Value.lexes_shown hv))
  cases value? with
  | none => exact nil
  | some v =>
      have hv := hvalue (h v rfl)
      rw [← String.append_assoc] at hv
      cases v with
      | null => exact nil
      | string s =>
          rw [Value.shown, ← String.append_assoc, ← String.append_assoc] at hv
          exact hv
      | _ => exact hv

theorem unique (c : Column) :
    Continues rules (if c.unique then " UNIQUE" else "") c.uniqueTokens := by
  unfold Column.uniqueTokens
  cases c.unique with
  | true => exact word .UNIQUE
  | false => exact nil

end Continues

/-- The name of a type is no keyword. -/
theorem lexes_typeName (type : DataType) :
    Lexes rules type.text.toList [.ident (Column.typeName type)] := by
  have hidentifier : isIdentifier type.text = true := by
    cases type <;> decide +kernel
  have htoken : wordToken type.text.toList = .ident (Column.typeName type) := by
    cases type <;> decide +kernel
  have hlexes : Lexes rules type.text.toList [wordToken type.text.toList] :=
    lexes_word hidentifier
  rwa [htoken] at hlexes

theorem lexes_columnText {c : Column} (hne : c.name ≠ "") (h : c.IsShown rules) :
    Lexes rules (Table.columnText c).toList c.tokens := by
  have hname := (Continues.blank (Continues.blank (lexes_writtenName hne h.quotes)).lexes).lexes
  have htype : Continues rules (" " ++ c.type.text) _ := .blank (lexes_typeName c.type)
  have hrest := (Continues.key c).append ((Continues.default h.default).append (.unique c))
  have hall := hname.then (htype.append hrest)
  have htext : Table.columnText c = (" " ++ (" " ++ writtenName c.name)) ++
      (" " ++ c.type.text ++
        ((if c.primaryKey then " PRIMARY KEY" else if c.nullable then "" else " NOT NULL") ++
          (Table.defaultText c.default ++ if c.unique then " UNIQUE" else ""))) := by
    have hindent : "  " = " " ++ " " := rfl
    unfold Table.columnText
    rw [hindent]
    simp only [String.append_assoc]
  rw [htext]
  exact hall

/-- The columns are cut into their tokens with commas between them. -/
theorem lexes_columns {columns : List Column} (h : ∀ c ∈ columns, c.name ≠ "" ∧ c.IsShown rules) :
    Lexes rules (",\n".intercalate (columns.map Table.columnText)).toList
      (commaSeparated (columns.map Column.tokens)) := by
  rw [String.toList_intercalate, List.map_map]
  induction columns with
  | nil => exact .nil
  | cons c columns ih =>
      obtain ⟨⟨hne, hc⟩, hcolumns⟩ := List.forall_mem_cons.mp h
      have hcolumn := lexes_columnText hne hc
      cases columns with
      | nil =>
          have hone : commaSeparated ([c].map Column.tokens) = c.tokens := List.append_nil _
          rw [hone, List.map_cons, List.map_nil, List.intercalate_singleton]
          exact hcolumn
      | cons next columns =>
          have hcomma := (lexes_sign .comma).behind (c := '\n') rfl (ih hcolumns)
          have hall := hcolumn.append hcomma (by rintro _ ⟨⟩; rfl)
          rw [List.map_cons, List.intercalate_cons_of_ne_nil (by simp), List.append_assoc]
          exact hall

theorem lexes_text {t : Table} (hname : t.name ≠ "") (hcolumns : ∀ c ∈ t.columns, c.name ≠ "")
    (hne : t.columns ≠ []) (h : t.IsShown rules) : Lexes rules t.text.toList t.tokens := by
  have hcreate : Lexes rules (Keyword.text .CREATE).toList _ := lexes_keyword .CREATE
  have htable : Continues rules (" " ++ Keyword.text .TABLE) _ := .word .TABLE
  have hname := Continues.blank (lexes_writtenName hname h.quotes)
  have hopen : Continues rules (" " ++ Sign.text .openParen) _ := .blank (lexes_sign .openParen)
  have hlist := Continues.newline (lexes_columns fun c hc => ⟨hcolumns c hc, h.columns c hc⟩)
  have hclose : Continues rules ("\n" ++ Sign.text .closeParen) _ :=
    .newline (lexes_sign .closeParen)
  have hall := hcreate.then ((htable.append hname).append (hopen.append (hlist.append hclose)))
  have htext : t.text = Keyword.text .CREATE ++ ((" " ++ Keyword.text .TABLE ++
      (" " ++ writtenName t.name)) ++ ((" " ++ Sign.text .openParen) ++
        (("\n" ++ ",\n".intercalate (t.columns.map Table.columnText)) ++
          ("\n" ++ Sign.text .closeParen)))) := by
    have hwords : "CREATE TABLE " =
        Keyword.text .CREATE ++ (" " ++ Keyword.text .TABLE ++ " ") := by decide +kernel
    have hopens : " (\n" = " " ++ Sign.text .openParen ++ "\n" := rfl
    have hsome : t.columns.isEmpty = false := List.isEmpty_eq_false_iff.mpr hne
    unfold Table.text
    rw [hwords, hopens, hsome, if_neg (by decide)]
    simp only [String.append_assoc]
    rfl
  have htokens : t.tokens = [.keyword .CREATE] ++ ((([.keyword .TABLE] ++
      [.ident (readName t.name)]) ++ ([.sign .openParen] ++
        (commaSeparated (t.columns.map Column.tokens) ++ [.sign .closeParen])))) := rfl
  rw [htext, htokens]
  exact hall

end

end DialectDb
