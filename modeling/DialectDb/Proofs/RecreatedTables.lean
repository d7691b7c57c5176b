/-
A printed table can be created again. The statement that the text of a
table is read as makes the table anew, with the same columns but for the
letter case of their names.
-/
import DialectDb.Dialect.Catalog
import DialectDb.Proofs.CreatedTables
import DialectDb.Proofs.RereadTables

namespace DialectDb

open DialectDb.Action

-- =========================================================== the same table

/-- Columns that differ in the letter case of their names at most. -/
structure Column.Same (c d : Column) : Prop where
  name : Text.sameName c.name d.name = true
  type : c.type = d.type
  primaryKey : c.primaryKey = d.primaryKey
  nullable : c.nullable = d.nullable
  default : c.default = d.default
  unique : c.unique = d.unique

/-- Tables with the same columns in the same order. -/
def Table.SameColumns (t u : Table) : Prop :=
  List.Forall₂ Column.Same t.columns u.columns

/-- A column as its printed form is read. -/
def Column.reread (c : Column) : Column :=
  { c with name := Lexer.readName c.name }

/-- A table as its printed form is read. -/
def Table.reread (t : Table) : Table :=
  ⟨Lexer.readName t.name, t.columns.map Column.reread⟩

theorem Lexer.readName_ne_empty {name : String} (h : name ≠ "") : readName name ≠ "" := by
  unfold readName
  split
  · intro hempty
    have hnil : name.toList.flatMap Text.lowerChar = [] := by simpa using hempty
    have hletters : name.toList ≠ [] := by simpa using h
    obtain ⟨c, letters, hletters⟩ := List.exists_cons_of_ne_nil hletters
    rw [hletters] at hnil
    exact lowerChar_ne_nil c (List.append_eq_nil_iff.mp hnil).1
  · exact h

-- ============================================================== columns

namespace Column

variable {rules : LexicalRules} {c : Column}

/-- Whether it takes NULL is printed, or follows from the primary key. -/
theorem shownNullable_getD (h : c.Admissible) :
    c.shownNullable.getD (!c.primaryKey) = c.nullable := by
  unfold shownNullable
  cases hprimary : c.primaryKey with
  | true => exact (h.key hprimary).symm
  | false => cases c.nullable <;> rfl

/-- The definition that a column is read as makes the column. -/
theorem column_definition (hadmissible : c.Admissible) (hsettled : c.Settled)
    (h : c.IsShown rules) : c.definition.column = .ok c.reread := by
  have hnullable : c.definition.nullable.getD (!c.definition.primaryKey) = c.nullable :=
    shownNullable_getD hadmissible
  have hgiven : c.definition.default = shownDefault c.default := rfl
  unfold ColumnDefinition.column
  dsimp only
  rw [hnullable, hgiven]
  unfold reread
  cases hdefault : c.default with
  | none =>
      rw [hsettled.none hdefault]
      rfl
  | some v =>
      by_cases hnull : v = .null
      · subst hnull
        rw [hadmissible.null hdefault]
        rfl
      · have htyped := Value.coerce_of_type (hsettled.typed v hdefault)
        have hshown : shownDefault (some v) = some v.shownExpr := if_neg (by simpa using hnull)
        rw [hshown]
        dsimp only
        rw [Value.evalConstant_shown (h.default v hdefault)]
        show (v.coerce c.type >>= _) = _
        rw [htyped]
        rfl

/-- There are no placeholders in it. -/
theorem bind_definition (ps : Parameters) (c : Column) :
    c.definition.bind ps = .ok c.definition := by
  have hsigned (negative : Bool) (v : Value) :
      (signedLiteral negative v).bind ps = .ok (signedLiteral negative v) := by
    cases negative <;> rfl
  have hvalue (v : Value) : v.shownExpr.bind ps = .ok v.shownExpr := by
    cases v with
    | integer i => exact hsigned _ _
    | float d => exact hsigned _ _
    | _ => rfl
  have hdefault : Expr.bindOption ps (shownDefault c.default) = .ok (shownDefault c.default) := by
    unfold shownDefault
    split
    · rfl
    · cases c.default with
      | none => rfl
      | some v =>
          show (do return some (← v.shownExpr.bind ps) : Result (Option Expr)) = _
          rw [hvalue]
          rfl
  unfold ColumnDefinition.bind
  show (do return { c.definition with
    default := ← Expr.bindOption ps (shownDefault c.default) } : Result ColumnDefinition) = _
  rw [hdefault]
  rfl

theorem same_reread (h : c.IsShown rules) : c.Same c.reread where
  name := Text.sameName_iff.mpr (Text.sameName_iff.mp h.letters).symm
  type := rfl
  primaryKey := rfl
  nullable := rfl
  default := rfl
  unique := rfl

theorem admissible_reread (h : c.Admissible) : c.reread.Admissible where
  name := Lexer.readName_ne_empty h.name
  key := h.key
  null := h.null
  storable := h.storable

end Column

-- =============================================================== tables

namespace Table

variable {rules : LexicalRules} {t : Table}

theorem sameColumns_reread (h : t.IsShown rules) : t.SameColumns t.reread := by
  unfold SameColumns reread
  rw [List.forall₂_map_right_iff, List.forall₂_same]
  exact fun c hc => Column.same_reread (h.columns c hc)

/-- Names that are the same are told apart from the same others. -/
theorem validate_reread (hvalid : t.validate = .ok ⟨⟩) (h : t.IsShown rules) :
    t.reread.validate = .ok ⟨⟩ := by
  obtain ⟨hname, hne, hadmissible, hnames⟩ := validate_eq_ok.mp hvalid
  refine validate_eq_ok.mpr ⟨Lexer.readName_ne_empty hname, by simpa [reread] using hne, ?_, ?_⟩
  · exact List.forall_mem_map.mpr fun c hc => Column.admissible_reread (hadmissible c hc)
  · refine List.pairwise_map.mpr (hnames.imp_of_mem fun {b c} hb hc hdiffer => ?_)
    have hsame (d : Column) (hd : d ∈ t.columns) :
        Text.nameKey d.reread.name = Text.nameKey d.name :=
      Text.sameName_iff.mp (h.columns d hd).letters
    unfold Text.sameName at hdiffer ⊢
    rw [hsame b hb, hsame c hc]
    exact hdiffer

/-- The statement that a printed table is read as makes the table. -/
theorem table_definitions (hadmissible : ∀ c ∈ t.columns, c.Admissible)
    (hsettled : ∀ c ∈ t.columns, c.Settled) (h : t.IsShown rules) :
    ColumnDefinition.table (Lexer.readName t.name) (t.columns.map Column.definition) =
      .ok t.reread := by
  have hcolumns : (t.columns.map Column.definition).mapM (·.column) =
      .ok (t.columns.map Column.reread) := by
    rw [Result.mapM_eq_ok, List.forall₂_map_left_iff, List.forall₂_map_right_iff, List.forall₂_same]
    exact fun c hc => Column.column_definition (hadmissible c hc) (hsettled c hc) (h.columns c hc)
  unfold ColumnDefinition.table
  rw [hcolumns]
  rfl

end Table

namespace Statement

variable {version : DialectVersion} {ps : Parameters} {sql name : String}
  {definitions : List ColumnDefinition} {s after : Store} {outcome : Outcome}
  {stored : StoredTable}

theorem bind_shownStatement (ps : Parameters) (t : Table) :
    (Grammar.shownStatement t).bind ps = .ok (Grammar.shownStatement t) := by
  have hcolumns : (t.columns.map Column.definition).mapM (·.bind ps) =
      .ok (t.columns.map Column.definition) := by
    rw [Result.mapM_eq_ok, List.forall₂_map_left_iff, List.forall₂_map_right_iff, List.forall₂_same]
    exact fun c _ => Column.bind_definition ps c
  show (do return createTable _ (← (t.columns.map Column.definition).mapM (·.bind ps))
    : Result Statement) = _
  rw [hcolumns]
  rfl

/-- In an empty store that statement creates the table. -/
theorem perform_shownStatement {t : Table} {rules : LexicalRules} (hvalid : t.validate = .ok ⟨⟩)
    (hsettled : ∀ c ∈ t.columns, c.Settled) (h : t.IsShown rules) :
    ((Grammar.shownStatement t).execute version).perform {} =
      (.ok (.effect (.createdTable t.reread.name)),
        ⟨[⟨Store.keyOf t.reread.name, ⟨t.reread, []⟩⟩]⟩) := by
  have hadmissible := (Table.validate_eq_ok.mp hvalid).2.2.1
  have hcreate := Store.perform_createTable (Table.validate_reread hvalid h)
  refine perform_lift_bind_eq_ok.mpr ⟨_, Table.table_definitions hadmissible hsettled h, ?_⟩
  exact perform_bind_eq_ok.mpr ⟨_, _, hcreate, rfl⟩

/-- A table that CREATE TABLE has created is created again from its text:
under the same version the text is parsed as CREATE TABLE, and in an empty
store this leaves a table with the same columns, whatever parameters are
given. -/
theorem recreates_table (hparse : parse version sql = .ok (.createTable name definitions))
    (hrun : (run version ps sql).perform s = (.ok outcome, after))
    (hfound : after.find? name = some stored)
    (hshown : stored.table.IsShown version.dialect.lexical) :
    ∃ t shown,
      parse version stored.table.text = .ok (.createTable t.name shown) ∧
      (∀ ps' : Parameters, (run version ps' stored.table.text).perform {} =
        (.ok (.effect (.createdTable t.name)), ⟨[⟨Store.keyOf t.name, ⟨t, []⟩⟩]⟩)) ∧
      stored.table.SameColumns t := by
  obtain ⟨hvalid, hsettled⟩ := created_table hparse hrun hfound
  obtain ⟨hname, hne, hadmissible, -⟩ := Table.validate_eq_ok.mp hvalid
  have htext : parse version stored.table.text = .ok (Grammar.shownStatement stored.table) :=
    Table.parse_shown hname (fun c hc => (hadmissible c hc).name) hne hshown
  refine ⟨stored.table.reread, _, htext, fun ps' => ?_, Table.sameColumns_reread hshown⟩
  refine perform_lift_bind_eq_ok.mpr ⟨_, htext, ?_⟩
  refine perform_lift_bind_eq_ok.mpr ⟨_, bind_shownStatement ps' _, ?_⟩
  exact perform_shownStatement hvalid hsettled hshown

end Statement

namespace RecreatedTables

-- ============================================================ two tables

/-- A quoted keyword and capital letters in names, a negative default, and
a quote in a default. -/
def ordersText : String :=
  "CREATE TABLE \"Orders\" (\"key\" INT PRIMARY KEY, total FLOAT DEFAULT -0.5 NOT NULL, " ++
    "\"Note\" TEXT DEFAULT 'it''s' UNIQUE)"

def orders : Table :=
  ⟨"Orders", [
    { name := "key", type := .integer, primaryKey := true, nullable := false, default := none },
    { name := "total", type := .float, nullable := false,
      default := some (.float (Double.ofDecimal true ['5'] (-1))) },
    { name := "Note", type := .string, default := some (.string "it's"), unique := true }]⟩

example : orders.text = "CREATE TABLE Orders (\n  \"key\" INTEGER PRIMARY KEY,\n" ++
    "  total FLOAT NOT NULL DEFAULT -0.5,\n  Note STRING DEFAULT 'it''s' UNIQUE\n)" := by
  decide +kernel

theorem orders_recreated :
    ∃ t shown,
      Statement.parse ⟨.postgreSql, 16⟩ orders.text = .ok (.createTable t.name shown) ∧
      (∀ ps : Parameters, (Statement.run ⟨.postgreSql, 16⟩ ps orders.text).perform {} =
        (.ok (.effect (.createdTable t.name)), ⟨[⟨Store.keyOf t.name, ⟨t, []⟩⟩]⟩)) ∧
      orders.SameColumns t := by
  have hcreates : Statement.creates ⟨.postgreSql, 16⟩ ordersText "Orders" = true := by
    decide +kernel
  have hsucceeds : ((Statement.run ⟨.postgreSql, 16⟩ [] ordersText).perform {}).1.isOk = true := by
    decide +kernel
  have hfound : ((Statement.run ⟨.postgreSql, 16⟩ [] ordersText).perform {}).2.find? "Orders" =
      some ⟨orders, []⟩ := by
    decide +kernel
  have hshown : orders.IsShown Dialect.postgreSql.lexical := by
    decide +kernel
  obtain ⟨definitions, hparse⟩ := Statement.creates_iff.mp hcreates
  rcases hrun : (Statement.run ⟨.postgreSql, 16⟩ [] ordersText).perform {} with ⟨_ | outcome, after⟩
  · rw [hrun] at hsucceeds
    cases hsucceeds
  · rw [hrun] at hfound
    have hrecreates := Statement.recreates_table hparse hrun hfound hshown
    exact hrecreates

/-- A keyword is the name of a column. -/
def keyedText : String :=
  "CREATE TABLE t (key INT PRIMARY KEY)"

def keyed : Table :=
  ⟨"t", [
    { name := "key", type := .integer, primaryKey := true, nullable := false, default := none }]⟩

/-- Where double quotes are those of strings, a name between them is not
read as a name. -/
theorem keyed_not_recreated :
    Statement.creates ⟨.mySql, 8⟩ keyedText "t" = true ∧
      ((Statement.run ⟨.mySql, 8⟩ [] keyedText).perform {}).1.isOk = true ∧
      ((Statement.run ⟨.mySql, 8⟩ [] keyedText).perform {}).2.find? "t" = some ⟨keyed, []⟩ ∧
      keyed.text = "CREATE TABLE t (\n  \"key\" INTEGER PRIMARY KEY\n)" ∧
      (Statement.parse ⟨.mySql, 8⟩ keyed.text).isOk = false := by
  decide +kernel

end RecreatedTables

end DialectDb
