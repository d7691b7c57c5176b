/-
What MERGE means, without its loops. Each target row is looked at by
itself: of the source rows of which ON is true together with it there is
at most one, and that row decides what becomes of it. Each source row is
looked at by itself too: if ON is true of it with no target row, it may
insert one. Nothing of this depends on the order of the source rows but
the order of what they insert.

The program goes through the source rows and carries all target rows
along, each with its fate. For a single target row this is a path from
fate to fate, and on it every source row but one leaves the fate as it
is; so the paths of all target rows together are what the loop does
(`takeSources_eq_ok`).
-/
import DialectDb.Proofs.Merging
import DialectDb.Proofs.Truth
import DialectDb.Proofs.Where

namespace DialectDb

open DialectDb.Action

namespace Merge

variable {t : Table} {predicate : Formula} {clauses : List Clause}

-- ============================================================= clauses

/-- A clause that a row passes. -/
def Clause.Applies (c : Clause) (input : Row) : Prop :=
  ∀ e ∈ c.condition, e.isTrue input = true

/-- A clause that a row does not pass: its condition is false or NULL. -/
def Clause.Declines (c : Clause) (input : Row) : Prop :=
  ∃ e ∈ c.condition, e.Decides input ∧ e.isTrue input = false

theorem Clause.holds_eq_ok {c : Clause} {input : Row} {b : Bool} :
    Formula.holds c.condition input = .ok b ↔
      (c.Applies input ∧ b = true) ∨ (c.Declines input ∧ b = false) := by
  unfold Applies Declines
  cases c.condition with
  | none =>
      constructor
      · intro h
        cases h
        exact .inl ⟨nofun, rfl⟩
      · rintro (⟨-, rfl⟩ | ⟨⟨_, hnone, -⟩, -⟩)
        · rfl
        · cases hnone
  | some e =>
      rw [Formula.holds_some_eq_ok]
      simp only [Option.mem_some_iff, forall_eq', exists_eq_left']
      constructor
      · rintro ⟨hdecides, rfl⟩
        cases htrue : e.isTrue input
        · exact .inr ⟨⟨hdecides, rfl⟩, rfl⟩
        · exact .inl ⟨rfl, rfl⟩
      · rintro (⟨htrue, rfl⟩ | ⟨⟨hdecides, hfalse⟩, rfl⟩)
        · exact ⟨Formula.decides_of_isTrue htrue, htrue.symm⟩
        · exact ⟨hdecides, hfalse.symm⟩

/-- What the first clause that applies does, if one applies. All clauses
before it decline. -/
def FirstApplicable (input : Row) (clauses : List Clause) : Option ClauseAction → Prop
  | none => ∀ c ∈ clauses, c.Declines input
  | some action => ∃ before c after, clauses = before ++ c :: after ∧
      (∀ earlier ∈ before, earlier.Declines input) ∧ c.Applies input ∧ c.action = action

theorem firstApplicable_cons {input : Row} {c : Clause} {action : Option ClauseAction} :
    FirstApplicable input (c :: clauses) action ↔
      (c.Applies input ∧ action = some c.action) ∨
        (c.Declines input ∧ FirstApplicable input clauses action) := by
  cases action with
  | none => simp [FirstApplicable]
  | some action =>
      constructor
      · rintro ⟨before, d, after, hsplit, hbefore, happlies, rfl⟩
        cases before with
        | nil =>
            cases hsplit
            exact .inl ⟨happlies, rfl⟩
        | cons _ before =>
            cases hsplit
            obtain ⟨hfirst, hbefore⟩ := List.forall_mem_cons.mp hbefore
            exact .inr ⟨hfirst, before, d, after, rfl, hbefore, happlies, rfl⟩
      · rintro (⟨happlies, hsame⟩ | ⟨hfirst, before, d, after, rfl, hbefore, happlies, rfl⟩)
        · cases hsame
          exact ⟨[], c, clauses, rfl, fun _ h => absurd h List.not_mem_nil, happlies, rfl⟩
        · exact ⟨c :: before, d, after, rfl, List.forall_mem_cons.mpr ⟨hfirst, hbefore⟩,
            happlies, rfl⟩

theorem firstApplicable_eq_ok {input : Row} {action : Option ClauseAction} :
    firstApplicable input clauses = .ok action ↔ FirstApplicable input clauses action := by
  induction clauses with
  | nil => cases action <;> simp [firstApplicable, FirstApplicable]
  | cons c clauses ih =>
      rw [firstApplicable, Result.bind_eq_ok, firstApplicable_cons, ← ih]
      constructor
      · rintro ⟨_, hholds, h⟩
        rcases Clause.holds_eq_ok.mp hholds with ⟨happlies, rfl⟩ | ⟨hdeclines, rfl⟩
        · cases h
          exact .inl ⟨happlies, rfl⟩
        · exact .inr ⟨hdeclines, h⟩
      · rintro (⟨happlies, rfl⟩ | ⟨hdeclines, h⟩)
        · exact ⟨true, Clause.holds_eq_ok.mpr (.inl ⟨happlies, rfl⟩), rfl⟩
        · exact ⟨false, Clause.holds_eq_ok.mpr (.inr ⟨hdeclines, rfl⟩), h⟩

-- ============================================================= meaning

/-- Whether ON is true of a target row and a source row. -/
def pairs (predicate : Formula) (target source : Row) : Bool :=
  predicate.isTrue (target ++ source)

/-- What becomes of a target row with which ON is true of some source
rows. There is no fate for a row that pairs with several, nor where an
evaluation fails or the updated row is none that the table can store. -/
inductive Meets (t : Table) (clauses : List Clause) (target : Row) : List Row → Fate → Prop
  | unmatched : Meets t clauses target [] .unmatched
  | kept {source : Row} (first : FirstApplicable (target ++ source) clauses none) :
      Meets t clauses target [source] .kept
  | updated {source assigned row : Row} {assignments : List PlaceAssignment}
      (first : FirstApplicable (target ++ source) clauses (some (.update assignments)))
      (assigns : PlaceAssignment.applyAll (target ++ source) assignments target = .ok assigned)
      (stored : t.normalizeRow assigned = .ok row) :
      Meets t clauses target [source] (.updated row)
  | deleted {source : Row} (first : FirstApplicable (target ++ source) clauses (some .delete)) :
      Meets t clauses target [source] .deleted

/-- What a source row inserts with which ON is true of no target row:
its clauses see NULL in all columns of the target. -/
inductive Inserts (t : Table) (clauses : List Clause) (source : Row) : Option Row → Prop
  | nothing
      (first : FirstApplicable (List.replicate t.columns.length .null ++ source) clauses none) :
      Inserts t clauses source none
  | row {places : List Nat} {formulas : List Formula} {values : List Value} {row : Row}
      (first : FirstApplicable (List.replicate t.columns.length .null ++ source) clauses
        (some (.insert places formulas)))
      (evaluates : Formula.evalList (List.replicate t.columns.length .null ++ source) formulas =
        .ok values)
      (builds : t.buildRow places values = .ok row) :
      Inserts t clauses source (some row)

/-- The rows that source rows insert, in their order. -/
def NewRows (t : Table) (clauses : List Clause) (source rows : List Row) : Prop :=
  ∃ news, List.Forall₂ (Inserts t clauses) source news ∧ rows = news.filterMap id

/-- The source rows with which ON is true of no target row. -/
def unmatched (predicate : Formula) (before source : List Row) : List Row :=
  source.filter fun row => !before.any (pairs predicate · row)

/-- What MERGE makes of a table's rows: the fates of the rows there were,
in their order, and the rows that are inserted, in the order of the
source rows. -/
structure Means (t : Table) (predicate : Formula) (clauses : List Clause)
    (before source : List Row) (p : Progress) : Prop where
  decides : ∀ target ∈ before, ∀ row ∈ source, predicate.Decides (target ++ row)
  rows : p.targets.map (·.row) = before
  fates : ∀ target ∈ p.targets, Meets t (clauses.filter (·.matched)) target.row
    (source.filter (pairs predicate target.row)) target.fate
  inserted : NewRows t (clauses.filter (!·.matched)) (unmatched predicate before source) p.inserted

theorem Meets.others_eq_nil {target source : Row} {others : List Row} {fate : Fate}
    (h : Meets t clauses target (source :: others) fate) : others = [] := by
  generalize hpaired : source :: others = paired at h
  cases h <;> cases hpaired <;> rfl

/-- A row that pairs with one has met its fate. -/
theorem Meets.fate_ne {target source : Row} {others : List Row} {fate : Fate}
    (h : Meets t clauses target (source :: others) fate) : fate ≠ .unmatched := by
  generalize hpaired : source :: others = paired at h
  cases h with
  | unmatched => cases hpaired
  | kept | updated | deleted => exact nofun

-- ======================================================== target rows

/-- The first clause that applies to a pair of rows gives the target row
its fate. -/
theorem fate_eq_ok {target source : Row} {fate : Fate} :
    (firstApplicable (target ++ source) clauses >>= fateOf t target (target ++ source)) =
        .ok fate ↔
      Meets t clauses target [source] fate := by
  simp only [Result.bind_eq_ok, firstApplicable_eq_ok]
  constructor
  · rintro ⟨action, hfirst, h⟩
    unfold fateOf at h
    split at h
    · cases h
      exact .kept hfirst
    · obtain ⟨assigned, hassigned, h⟩ := Result.bind_eq_ok.mp h
      obtain ⟨row, hrow, h⟩ := Result.map_eq_ok.mp h
      cases h
      exact .updated hfirst hassigned hrow
    · cases h
      exact .deleted hfirst
    · cases h
  · rintro (_ | hfirst | ⟨hfirst, hassigned, hrow⟩ | hfirst)
    · exact ⟨_, hfirst, rfl⟩
    · refine ⟨_, hfirst, ?_⟩
      rw [fateOf, hassigned, Result.ok_bind, hrow]
      rfl
    · exact ⟨_, hfirst, rfl⟩

/-- What a source row makes of a target row with its fate. It passes it,
or it is the first to match it. -/
inductive Takes (t : Table) (predicate : Formula) (clauses : List Clause) (source : Row) :
    Target → Target → Prop
  | passes {target : Target} (decides : predicate.Decides (target.row ++ source))
      (apart : pairs predicate target.row source = false) :
      Takes t predicate clauses source target target
  | meets {row : Row} {fate : Fate} (matched : pairs predicate row source = true)
      (meets : Meets t clauses row [source] fate) :
      Takes t predicate clauses source ⟨row, .unmatched⟩ ⟨row, fate⟩

theorem Takes.decides {source : Row} {target after : Target}
    (h : Takes t predicate clauses source target after) :
    predicate.Decides (target.row ++ source) := by
  cases h with
  | passes decides _ => exact decides
  | meets matched _ => exact Formula.decides_of_isTrue matched

theorem Takes.row {source : Row} {target after : Target}
    (h : Takes t predicate clauses source target after) : after.row = target.row := by
  cases h <;> rfl

theorem rows_of_takes {source : Row} {targets after : List Target}
    (h : List.Forall₂ (Takes t predicate clauses source) targets after) :
    after.map (·.row) = targets.map (·.row) := by
  induction h with
  | nil => rfl
  | cons hfirst _ ih => rw [List.map_cons, List.map_cons, hfirst.row, ih]

/-- A source row is matched with the first of the target rows, and with
the others. -/
theorem matchTargets_cons_eq_ok {source : Row} {target : Target} {rest after : List Target}
    {found : Bool} :
    matchTargets t predicate clauses source (target :: rest) = .ok (found, after) ↔
      ∃ first further others, Takes t predicate clauses source target first ∧
        matchTargets t predicate clauses source rest = .ok (further, others) ∧
        after = first :: others ∧ found = (pairs predicate target.row source || further) := by
  rw [matchTargets, Result.bind_eq_ok]
  simp only [Formula.holds_some_eq_ok]
  constructor
  · rintro ⟨_, ⟨hdecides, rfl⟩, h⟩
    cases hpairs : pairs predicate target.row source with
    | true =>
        rw [if_pos (show predicate.isTrue _ = true from hpairs)] at h
        obtain ⟨row, fate⟩ := target
        cases fate with
        | unmatched =>
            dsimp only at h
            rw [← bind_assoc] at h
            obtain ⟨fate, hfate, h⟩ := Result.bind_eq_ok.mp h
            obtain ⟨⟨further, others⟩, hothers, h⟩ := Result.bind_eq_ok.mp h
            cases h
            exact ⟨_, further, others, .meets hpairs (fate_eq_ok.mp hfate), hothers, rfl, rfl⟩
        | _ => cases h
    | false =>
        rw [if_neg (show ¬predicate.isTrue _ = true from Bool.eq_false_iff.mp hpairs)] at h
        obtain ⟨⟨further, others⟩, hothers, h⟩ := Result.bind_eq_ok.mp h
        cases h
        exact ⟨_, further, others, .passes hdecides hpairs, hothers, rfl, rfl⟩
  · rintro ⟨first, further, others, hfirst, hothers, rfl, rfl⟩
    refine ⟨_, ⟨hfirst.decides, rfl⟩, ?_⟩
    cases hfirst with
    | passes _ hapart =>
        rw [if_neg (show ¬predicate.isTrue _ = true from Bool.eq_false_iff.mp hapart), hothers,
          hapart]
        rfl
    | meets hmatched hmeets =>
        rw [if_pos (show predicate.isTrue _ = true from hmatched), hmatched]
        dsimp only
        rw [← bind_assoc, fate_eq_ok.mpr hmeets, Result.ok_bind, hothers]
        rfl

/-- A source row is matched with all target rows iff each of them can
take it, and it is found iff it pairs with one of them. -/
theorem matchTargets_eq_ok {source : Row} {targets after : List Target} {found : Bool} :
    matchTargets t predicate clauses source targets = .ok (found, after) ↔
      List.Forall₂ (Takes t predicate clauses source) targets after ∧
        found = targets.any fun target => pairs predicate target.row source := by
  induction targets generalizing after found with
  | nil =>
      rw [List.forall₂_nil_left_iff]
      constructor
      · intro h
        cases h
        exact ⟨rfl, rfl⟩
      · rintro ⟨rfl, rfl⟩
        rfl
  | cons target rest ih =>
      rw [matchTargets_cons_eq_ok, List.any_cons]
      simp only [ih]
      constructor
      · rintro ⟨first, _, others, hfirst, ⟨hothers, rfl⟩, rfl, rfl⟩
        exact ⟨.cons hfirst hothers, rfl⟩
      · rintro ⟨hafter, rfl⟩
        cases hafter with
        | cons hfirst hothers => exact ⟨_, _, _, hfirst, ⟨hothers, rfl⟩, rfl, rfl⟩

-- =============================================================== paths

/-- The path of a target row through the source rows. -/
inductive Path (t : Table) (predicate : Formula) (clauses : List Clause) :
    List Row → Target → Target → Prop
  | nil {target : Target} : Path t predicate clauses [] target target
  | cons {row : Row} {source : List Row} {target mid after : Target}
      (first : Takes t predicate clauses row target mid)
      (rest : Path t predicate clauses source mid after) :
      Path t predicate clauses (row :: source) target after

theorem path_cons {row : Row} {source : List Row} {target after : Target} :
    Path t predicate clauses (row :: source) target after ↔
      ∃ mid, Takes t predicate clauses row target mid ∧
        Path t predicate clauses source mid after := by
  constructor
  · rintro ⟨⟩
    exact ⟨_, ‹_›, ‹_›⟩
  · rintro ⟨mid, hfirst, hrest⟩
    exact .cons hfirst hrest

theorem path_nil {target after : Target} :
    Path t predicate clauses [] target after ↔ target = after := by
  constructor
  · rintro ⟨⟩
    rfl
  · rintro rfl
    exact .nil

theorem paths_nil {targets after : List Target} :
    List.Forall₂ (Path t predicate clauses []) targets after ↔ after = targets := by
  induction targets generalizing after with
  | nil => rw [List.forall₂_nil_left_iff]
  | cons target targets ih => simp [List.forall₂_cons_left_iff, path_nil, ih]

/-- The paths of several target rows take each source row together. -/
theorem paths_cons {row : Row} {source : List Row} {targets after : List Target} :
    List.Forall₂ (Path t predicate clauses (row :: source)) targets after ↔
      ∃ mid, List.Forall₂ (Takes t predicate clauses row) targets mid ∧
        List.Forall₂ (Path t predicate clauses source) mid after := by
  induction targets generalizing after with
  | nil => simp
  | cons target targets ih =>
      simp only [List.forall₂_cons_left_iff, path_cons, ih]
      constructor
      · rintro ⟨_, _, ⟨mid, hfirst, hrest⟩, ⟨mids, hfirsts, hrests⟩, rfl⟩
        exact ⟨_, ⟨mid, mids, hfirst, hfirsts, rfl⟩, .cons hrest hrests⟩
      · rintro ⟨_, ⟨mid, mids, hfirst, hfirsts, rfl⟩, hrest⟩
        cases hrest with
        | cons hrest hrests => exact ⟨_, _, ⟨mid, hfirst, hrest⟩, ⟨mids, hfirsts, hrests⟩, rfl⟩

/-- A target row that has met its fate passes all further source
rows. -/
theorem path_of_settled {source : List Row} {target after : Target}
    (h : target.fate ≠ .unmatched) :
    Path t predicate clauses source target after ↔
      (∀ row ∈ source, predicate.Decides (target.row ++ row)) ∧
        source.filter (pairs predicate target.row) = [] ∧ after = target := by
  induction source with
  | nil =>
      rw [path_nil]
      constructor
      · rintro rfl
        exact ⟨fun _ hrow => absurd hrow List.not_mem_nil, rfl, rfl⟩
      · rintro ⟨-, -, rfl⟩
        rfl
  | cons row source ih =>
      rw [path_cons, List.forall_mem_cons, List.filter_cons]
      constructor
      · rintro ⟨mid, hfirst, hrest⟩
        cases hfirst with
        | passes hdecides hapart =>
            obtain ⟨hsource, hnone, rfl⟩ := ih.mp hrest
            rw [hapart]
            exact ⟨⟨hdecides, hsource⟩, hnone, rfl⟩
        | meets => exact absurd rfl h
      · rintro ⟨⟨hdecides, hsource⟩, hnone, rfl⟩
        split at hnone
        · cases hnone
        · next hapart =>
            exact ⟨_, .passes hdecides (Bool.eq_false_iff.mpr hapart),
              ih.mpr ⟨hsource, hnone, rfl⟩⟩

/-- A target row that has not met its fate meets it at the only source
row with which it pairs. -/
theorem path_of_unmatched {source : List Row} {target : Row} {after : Target} :
    Path t predicate clauses source ⟨target, .unmatched⟩ after ↔
      (∀ row ∈ source, predicate.Decides (target ++ row)) ∧ after.row = target ∧
        Meets t clauses target (source.filter (pairs predicate target)) after.fate := by
  induction source with
  | nil =>
      rw [path_nil]
      constructor
      · rintro rfl
        exact ⟨fun _ hrow => absurd hrow List.not_mem_nil, rfl, .unmatched⟩
      · obtain ⟨_, _⟩ := after
        rintro ⟨-, rfl, ⟨⟩⟩
        rfl
  | cons row source ih =>
      rw [path_cons, List.forall_mem_cons, List.filter_cons]
      constructor
      · rintro ⟨mid, hfirst, hrest⟩
        cases hfirst with
        | passes hdecides hapart =>
            obtain ⟨hsource, hrow, hmeets⟩ := ih.mp hrest
            rw [hapart]
            exact ⟨⟨hdecides, hsource⟩, hrow, hmeets⟩
        | @meets _ fate hmatched hmeets =>
            have hsettled : (⟨target, fate⟩ : Target).fate ≠ .unmatched := hmeets.fate_ne
            obtain ⟨hsource, hnone, rfl⟩ := (path_of_settled hsettled).mp hrest
            rw [if_pos hmatched, hnone]
            exact ⟨⟨Formula.decides_of_isTrue hmatched, hsource⟩, rfl, hmeets⟩
      · rintro ⟨⟨hdecides, hsource⟩, rfl, hmeets⟩
        split at hmeets
        · next hmatched =>
            -- the source row is the only one
            have hsingle : source.filter (pairs predicate after.row) = [] :=
              hmeets.others_eq_nil
            rw [hsingle] at hmeets
            exact ⟨after, .meets hmatched hmeets,
              (path_of_settled hmeets.fate_ne).mpr ⟨hsource, hsingle, rfl⟩⟩
        · next hapart =>
            exact ⟨_, .passes hdecides (Bool.eq_false_iff.mpr hapart),
              ih.mpr ⟨hsource, rfl, hmeets⟩⟩

/-- From the start each target row meets its fate by itself. -/
theorem paths_of_unmatched {before source : List Row} {targets : List Target} :
    List.Forall₂ (fun row target => Path t predicate clauses source ⟨row, .unmatched⟩ target)
        before targets ↔
      (∀ target ∈ before, ∀ row ∈ source, predicate.Decides (target ++ row)) ∧
        targets.map (·.row) = before ∧
        ∀ target ∈ targets, Meets t clauses target.row
          (source.filter (pairs predicate target.row)) target.fate := by
  simp only [path_of_unmatched]
  induction before generalizing targets with
  | nil => simp +contextual
  | cons row before ih =>
      simp only [List.forall₂_cons_left_iff, ih, List.forall_mem_cons]
      constructor
      · rintro ⟨target, targets, ⟨hdecides, rfl, hmeets⟩, ⟨hothers, rfl, hfates⟩, rfl⟩
        exact ⟨⟨hdecides, hothers⟩, rfl, List.forall_mem_cons.mpr ⟨hmeets, hfates⟩⟩
      · rintro ⟨⟨hdecides, hothers⟩, hrows, hfates⟩
        obtain ⟨target, targets, rfl, rfl, rfl⟩ := List.map_eq_cons_iff.mp hrows
        obtain ⟨hmeets, hfates⟩ := List.forall_mem_cons.mp hfates
        exact ⟨target, targets, ⟨hdecides, rfl, hmeets⟩, ⟨hothers, rfl, hfates⟩, rfl⟩

-- ========================================================= source rows

theorem insertion_eq_ok {source : Row} {new : Option Row} :
    insertion t clauses source = .ok new ↔ Inserts t clauses source new := by
  unfold insertion
  simp only [Result.bind_eq_ok, firstApplicable_eq_ok]
  constructor
  · rintro ⟨action, hfirst, h⟩
    split at h
    · cases h
      exact .nothing hfirst
    · obtain ⟨values, hvalues, h⟩ := Result.bind_eq_ok.mp h
      obtain ⟨row, hrow, h⟩ := Result.map_eq_ok.mp h
      cases h
      exact .row hfirst hvalues hrow
    · cases h
  · rintro (hfirst | ⟨hfirst, hvalues, hrow⟩)
    · exact ⟨_, hfirst, rfl⟩
    · refine ⟨_, hfirst, ?_⟩
      dsimp only
      rw [hvalues, Result.ok_bind, hrow]
      rfl

theorem newRows_nil {rows : List Row} : NewRows t clauses [] rows ↔ rows = [] := by
  constructor
  · rintro ⟨_, ⟨⟩, rfl⟩
    rfl
  · rintro rfl
    exact ⟨[], .nil, rfl⟩

theorem newRows_cons {row : Row} {source rows : List Row} :
    NewRows t clauses (row :: source) rows ↔
      ∃ new others, Inserts t clauses row new ∧ NewRows t clauses source others ∧
        rows = new.toList ++ others := by
  constructor
  · rintro ⟨_, _ | ⟨hnew, hnews⟩, rfl⟩
    refine ⟨_, _, hnew, ⟨_, hnews, rfl⟩, ?_⟩
    rename_i new _
    cases new <;> rfl
  · rintro ⟨new, _, hnew, ⟨news, hnews, rfl⟩, rfl⟩
    refine ⟨new :: news, .cons hnew hnews, ?_⟩
    cases new <;> rfl

theorem newRows_append {first rest rows : List Row} :
    NewRows t clauses (first ++ rest) rows ↔
      ∃ before behind, NewRows t clauses first before ∧ NewRows t clauses rest behind ∧
        rows = before ++ behind := by
  induction first generalizing rows with
  | nil => simp [newRows_nil]
  | cons row first ih =>
      simp only [List.cons_append, newRows_cons, ih]
      constructor
      · rintro ⟨new, _, hnew, ⟨before, behind, hbefore, hbehind, rfl⟩, rfl⟩
        exact ⟨_, behind, ⟨new, before, hnew, hbefore, rfl⟩, hbehind,
          (List.append_assoc _ _ _).symm⟩
      · rintro ⟨_, behind, ⟨new, before, hnew, hbefore, rfl⟩, hbehind, rfl⟩
        exact ⟨new, _, hnew, ⟨before, behind, hbefore, hbehind, rfl⟩, List.append_assoc _ _ _⟩

/-- A source row is taken iff each target row can take it, and it
inserts a row if it pairs with none. -/
theorem takeSource_eq_ok {source : Row} {p after : Progress} :
    takeSource t predicate clauses p source = .ok after ↔
      List.Forall₂ (Takes t predicate (clauses.filter (·.matched)) source) p.targets
          after.targets ∧
        ∃ rows, NewRows t (clauses.filter (!·.matched))
            (unmatched predicate (p.targets.map (·.row)) [source]) rows ∧
          after.inserted = p.inserted ++ rows := by
  obtain ⟨targets, inserted⟩ := after
  have hfound : (p.targets.map (·.row)).any (pairs predicate · source) =
      p.targets.any fun target => pairs predicate target.row source := List.any_map
  unfold takeSource unmatched
  simp only [Result.bind_eq_ok, Prod.exists, matchTargets_eq_ok, List.filter_cons, List.filter_nil,
    hfound]
  cases p.targets.any fun target => pairs predicate target.row source with
  | true =>
      simp only [Bool.not_true, if_neg Bool.false_ne_true, newRows_nil, exists_eq_left]
      constructor
      · rintro ⟨_, _, ⟨htargets, rfl⟩, h⟩
        cases h
        exact ⟨htargets, (List.append_nil _).symm⟩
      · rintro ⟨htargets, hinserted⟩
        refine ⟨_, _, ⟨htargets, rfl⟩, ?_⟩
        rw [hinserted, List.append_nil]
        rfl
  | false =>
      simp only [Bool.not_false, if_true, newRows_cons, newRows_nil]
      constructor
      · rintro ⟨_, _, ⟨htargets, rfl⟩, h⟩
        obtain ⟨new, hnew, h⟩ := Result.bind_eq_ok.mp h
        cases h
        exact ⟨htargets, _, ⟨new, _, insertion_eq_ok.mp hnew, rfl, rfl⟩, by rw [List.append_nil]⟩
      · rintro ⟨htargets, _, ⟨new, _, hnew, rfl, rfl⟩, hinserted⟩
        refine ⟨_, _, ⟨htargets, rfl⟩, ?_⟩
        rw [hinserted, List.append_nil]
        exact Result.bind_eq_ok.mpr ⟨new, insertion_eq_ok.mpr hnew, rfl⟩

/-- All source rows are taken iff there is a path through them for each
target row, and each source row that pairs with none inserts a row or
not. -/
theorem takeSources_eq_ok {source : List Row} {p after : Progress} :
    takeSources t predicate clauses p source = .ok after ↔
      List.Forall₂ (Path t predicate (clauses.filter (·.matched)) source) p.targets
          after.targets ∧
        ∃ rows, NewRows t (clauses.filter (!·.matched))
            (unmatched predicate (p.targets.map (·.row)) source) rows ∧
          after.inserted = p.inserted ++ rows := by
  unfold takeSources
  induction source generalizing p with
  | nil =>
      obtain ⟨targets, inserted⟩ := after
      rw [paths_nil]
      constructor
      · intro h
        cases h
        exact ⟨rfl, [], newRows_nil.mpr rfl, (List.append_nil _).symm⟩
      · rintro ⟨rfl, rows, hrows, hinserted⟩
        obtain rfl := newRows_nil.mp hrows
        dsimp only at hinserted
        rw [hinserted, List.append_nil]
        rfl
  | cons row source ih =>
      have hsplit : ∀ before, unmatched predicate before (row :: source) =
          unmatched predicate before [row] ++ unmatched predicate before source :=
        fun _ => List.filter_append [row] source
      rw [List.foldlM_cons, Result.bind_eq_ok, paths_cons]
      simp only [takeSource_eq_ok, ih, hsplit, newRows_append]
      constructor
      · rintro ⟨mid, ⟨hfirst, before, hbefore, hmid⟩, hrest, behind, hbehind, hafter⟩
        rw [rows_of_takes hfirst] at hbehind
        refine ⟨⟨_, hfirst, hrest⟩, _, ⟨before, behind, hbefore, hbehind, rfl⟩, ?_⟩
        rw [hafter, hmid, List.append_assoc]
      · rintro ⟨⟨mid, hfirst, hrest⟩, _, ⟨before, behind, hbefore, hbehind, rfl⟩, hafter⟩
        rw [← rows_of_takes hfirst] at hbehind
        refine ⟨⟨mid, p.inserted ++ before⟩, ⟨hfirst, before, hbefore, rfl⟩, hrest, behind,
          hbehind, ?_⟩
        rw [hafter, List.append_assoc]

/-- At the end of the loop is what MERGE means. -/
theorem takeSources_start_eq_ok {before source : List Row} {p : Progress} :
    takeSources t predicate clauses { targets := before.map fun row => ⟨row, .unmatched⟩ } source =
        .ok p ↔
      Means t predicate clauses before source p := by
  have hrows : (before.map fun row => (⟨row, .unmatched⟩ : Target)).map (·.row) = before := by
    rw [List.map_map]
    exact List.map_id before
  rw [takeSources_eq_ok, hrows, List.forall₂_map_left_iff]
  rw [paths_of_unmatched]
  constructor
  · rintro ⟨⟨hdecides, hrows, hfates⟩, rows, hnew, hinserted⟩
    exact ⟨hdecides, hrows, hfates, hinserted ▸ hnew⟩
  · rintro ⟨hdecides, hrows, hfates, hinserted⟩
    exact ⟨⟨hdecides, hrows, hfates⟩, _, hinserted, rfl⟩

-- ========================================================== final rows

/-- What is left of a target row. -/
def Target.left (target : Target) : Option Row :=
  match target.fate with
  | .unmatched | .kept => some target.row
  | .updated row => some row
  | .deleted => none

/-- The target rows that are left, and the inserted rows after them. -/
def Progress.final (p : Progress) : List Row :=
  p.targets.filterMap Target.left ++ p.inserted

theorem Progress.map_rows (p : Progress) : p.rows.map (·.row) = p.final := by
  have hleft : ∀ target : Target, target.survivor.map (·.row) = target.left := by
    rintro ⟨_, _ | _ | _ | _⟩ <;> rfl
  have hinserted : p.inserted.map ((·.row) ∘ fun row => (⟨row, true⟩ : WrittenRow)) = p.inserted :=
    List.map_id p.inserted
  simp only [Progress.rows, Progress.final, List.map_append, List.map_filterMap, List.map_map,
    hleft, hinserted]

/-- Rows of which MERGE has written none that collides with another. -/
def Free (t : Table) (rows : List WrittenRow) : Prop :=
  ∀ key ∈ t.uniqueKeys, rows.Pairwise fun a b =>
    a.written = true ∨ b.written = true → ¬Table.Collide key a.row b.row

/-- This is what the check at the end of MERGE asks. -/
theorem checkPlaces_writtenPlaces_eq_ok {rows : List WrittenRow} :
    t.checkPlaces (rows.map (·.row)).toArray (writtenPlaces rows) = .ok () ↔ Free t rows := by
  simp only [Table.checkPlaces_eq_ok, Table.checkUnique_eq_ok, Table.mem_others_some,
    mem_writtenPlaces, List.getElem?_toArray, List.getElem?_map]
  constructor
  · intro h key hkey
    -- a pair is checked from whichever of its rows was written
    have hchecked : ∀ {i j : Nat} {a b : WrittenRow}, rows[i]? = some a → rows[j]? = some b →
        i ≠ j → a.written = true → ¬Table.Collide key a.row b.row := by
      intro i j a b ha hb hne hwritten
      have hrow := h i ⟨a, ha, hwritten⟩ key hkey b.row ⟨j, hne.symm, by rw [hb]; rfl⟩
      rw [ha] at hrow
      exact hrow
    refine List.pairwise_iff_getElem.mpr fun i j hi hj hij hwritten hcollide => ?_
    have ha := List.getElem?_eq_getElem hi
    have hb := List.getElem?_eq_getElem hj
    rcases hwritten with hwritten | hwritten
    · exact hchecked ha hb (Nat.ne_of_lt hij) hwritten hcollide
    · exact hchecked hb ha (Nat.ne_of_gt hij) hwritten hcollide.symm
  · rintro h i ⟨a, ha, hwritten⟩ key hkey other ⟨j, hne, hother⟩ hcollide
    obtain ⟨b, hb, rfl⟩ := Option.map_eq_some_iff.mp hother
    rw [ha] at hcollide
    rcases Nat.lt_or_gt_of_ne hne with hji | hij
    · exact Table.pairwise_at (h key hkey) hji hb ha (.inr hwritten) hcollide.symm
    · exact Table.pairwise_at (h key hkey) hij ha hb (.inl hwritten) hcollide

/-- If no rows did before, it asks that no final rows collide at all. -/
theorem Means.free_iff {before source : List Row} {p : Progress}
    (h : Means t predicate clauses before source p) (hbefore : t.Unique before) :
    Free t p.rows ↔ t.Unique p.final := by
  have hsound := takeSources_sound (sound_start t before) (takeSources_start_eq_ok.mpr h)
  rw [← p.map_rows]
  constructor
  · intro hfree key hkey
    have hboth := (hfree key hkey).and (hsound.old_unique hbefore hkey)
    refine List.pairwise_map.mpr (hboth.imp fun {a b} hab => ?_)
    by_cases hwritten : a.written = true ∨ b.written = true
    · exact hab.1 hwritten
    · obtain ⟨ha, hb⟩ := not_or.mp hwritten
      exact hab.2 (Bool.eq_false_iff.mpr ha) (Bool.eq_false_iff.mpr hb)
  · intro hunique key hkey
    refine (List.pairwise_map.mp (hunique key hkey)).imp fun {a b} hab => ?_
    exact fun _ => hab

theorem perform_mergeRows_eq_ok {source : List Row} {existing after : Array Row} {count : Nat} :
    (mergeRows t predicate clauses source).perform existing = (.ok count, after) ↔
      ∃ p, Means t predicate clauses existing.toList source p ∧ Free t p.rows ∧
        count = p.count ∧ after = p.final.toArray := by
  unfold mergeRows
  rw [perform_get_bind]
  dsimp only
  simp only [perform_lift_bind_eq_ok, takeSources_start_eq_ok]
  constructor
  · rintro ⟨p, hmeans, _, hcheck, hwrite⟩
    cases hwrite
    exact ⟨p, hmeans, checkPlaces_writtenPlaces_eq_ok.mp hcheck, rfl, by rw [p.map_rows]⟩
  · rintro ⟨p, hmeans, hfree, rfl, rfl⟩
    rw [← p.map_rows]
    exact ⟨p, hmeans, ⟨⟩, checkPlaces_writtenPlaces_eq_ok.mpr hfree, rfl⟩

-- =============================================================== MERGE

/-- What the parts of a MERGE are in a store: its target table, the rows
that its source gives, and its condition and clauses with their names
resolved among the columns of both. -/
structure Resolves (m : Merge) (version : DialectVersion) (store : Store) (stored : StoredTable)
    (source : List Row) (predicate : Formula) (clauses : List Clause) : Prop where
  target : store.get m.target.name = .ok stored
  names : ∃ sourceScope scope, sourceRows version store m.source = .ok (sourceScope, source) ∧
    (Scope.ofColumns m.target.label stored.table.columnNames).merge sourceScope = .ok scope ∧
    scope.resolve m.predicate = .ok predicate ∧
    resolveClauses stored.table scope m.clauses = .ok clauses

theorem perform_execute_eq_ok {m : Merge} {version : DialectVersion} {store after : Store}
    {effect : Effect} :
    (m.execute version).perform store = (.ok effect, after) ↔
      ∃ stored source predicate clauses p,
        m.Resolves version store stored source predicate clauses ∧
        Means stored.table predicate clauses stored.rows source p ∧ Free stored.table p.rows ∧
        effect = .merged p.count ∧ after = store.setRows (Store.keyOf m.target.name) p.final := by
  unfold execute
  rw [perform_get_bind]
  simp only [perform_lift_bind_eq_ok]
  constructor
  · rintro ⟨⟨sourceScope, source⟩, hsource, stored, hget, scope, hscope, predicate, hpredicate,
      clauses, hclauses, hwrite⟩
    obtain ⟨count, _, hmutate, heffect⟩ := perform_bind_eq_ok.mp hwrite
    cases heffect
    obtain ⟨rows, hmerge, rfl⟩ := (Store.perform_mutate_eq_ok hget).mp hmutate
    obtain ⟨p, hmeans, hfree, rfl, rfl⟩ := perform_mergeRows_eq_ok.mp hmerge
    exact ⟨stored, source, predicate, clauses, p,
      ⟨hget, sourceScope, scope, hsource, hscope, hpredicate, hclauses⟩, hmeans, hfree, rfl, rfl⟩
  · rintro ⟨stored, source, predicate, clauses, p,
      ⟨hget, sourceScope, scope, hsource, hscope, hpredicate, hclauses⟩, hmeans, hfree, rfl, rfl⟩
    have hmerge : (mergeRows stored.table predicate clauses source).perform stored.rows.toArray =
        (.ok p.count, p.final.toArray) :=
      perform_mergeRows_eq_ok.mpr ⟨p, hmeans, hfree, rfl, rfl⟩
    have hmutate : (Store.mutate m.target.name fun table =>
        mergeRows table predicate clauses source).perform store =
          (.ok p.count, store.setRows (Store.keyOf m.target.name) p.final) :=
      (Store.perform_mutate_eq_ok hget).mpr ⟨_, hmerge, rfl⟩
    exact ⟨⟨sourceScope, source⟩, hsource, stored, hget, scope, hscope, predicate, hpredicate,
      clauses, hclauses, perform_bind_eq_ok.mpr ⟨p.count, _, hmutate, rfl⟩⟩

end Merge

/-- MERGE succeeds iff its meaning exists and none of the rows that it
writes collides with another, and it then leaves and counts what the
meaning says. In a table none of whose rows collided before, this is to
say that no final rows do. -/
theorem Statement.merge_means (m : Merge) (version : DialectVersion) (store : Store) :
    (∀ outcome after, ((merge m).execute version).perform store = (.ok outcome, after) ↔
      ∃ stored source predicate clauses p,
        m.Resolves version store stored source predicate clauses ∧
        Merge.Means stored.table predicate clauses stored.rows source p ∧
        Merge.Free stored.table p.rows ∧
        outcome = .effect (.merged
          ((p.targets.filter Merge.Target.isChanged).length + p.inserted.length)) ∧
        after = store.setRows (Store.keyOf m.target.name)
          (p.targets.filterMap Merge.Target.left ++ p.inserted)) ∧
    ∀ (stored : StoredTable) source predicate clauses p,
      Merge.Means stored.table predicate clauses stored.rows source p →
      stored.table.Unique stored.rows →
      (Merge.Free stored.table p.rows ↔
        stored.table.Unique (p.targets.filterMap Merge.Target.left ++ p.inserted)) := by
  refine ⟨fun outcome after => ?_, fun _ _ _ _ _ hmeans hunique => hmeans.free_iff hunique⟩
  rw [execute, perform_map, Prod.ext_iff, Result.map_eq_ok]
  constructor
  · rintro ⟨⟨effect, heffect, rfl⟩, hafter⟩
    obtain ⟨stored, source, predicate, clauses, p, hresolves, hmeans, hfree, rfl, hstore⟩ :=
      Merge.perform_execute_eq_ok.mp (Prod.ext heffect hafter)
    exact ⟨stored, source, predicate, clauses, p, hresolves, hmeans, hfree, rfl, hstore⟩
  · rintro ⟨stored, source, predicate, clauses, p, hresolves, hmeans, hfree, rfl, hstore⟩
    obtain ⟨hresult, hafter⟩ := Prod.ext_iff.mp (Merge.perform_execute_eq_ok.mpr
      ⟨stored, source, predicate, clauses, p, hresolves, hmeans, hfree, rfl, hstore⟩)
    exact ⟨⟨_, hresult, rfl⟩, hafter⟩

namespace Merging

/-- What is in stock, or is to be from now on. -/
def amounts (name : String) (rows : List Row) : StoredTable where
  table := ⟨name, [⟨"id", .integer, true, false, none, false⟩,
    ⟨"amount", .integer, false, true, some .null, false⟩]⟩
  rows

/-- The stock has three items. One of them is counted, one is sold out,
and an item is new. -/
def stores : Store :=
  ⟨[⟨"counts", amounts "Counts"
      [[.integer 1, .integer 10], [.integer 2, .integer 0], [.integer 4, .integer 3]]⟩,
    ⟨"stock", amounts "Stock"
      [[.integer 1, .integer 5], [.integer 2, .integer 7], [.integer 3, .integer 9]]⟩]⟩

/-- `MERGE INTO Stock USING Counts ON Stock.id = Counts.id WHEN MATCHED
AND Counts.amount = 0 THEN DELETE WHEN MATCHED THEN UPDATE SET amount =
Counts.amount WHEN NOT MATCHED THEN INSERT VALUES (Counts.id,
Counts.amount)` -/
def count : Merge where
  target := ⟨"Stock", none, []⟩
  source := .table ⟨"Counts", none, []⟩
  predicate := .binary .equal (.column (some "Stock") "id") (.column (some "Counts") "id")
  clauses := [
    ⟨true, some (.binary .equal (.column (some "Counts") "amount") (.literal (.integer 0))),
      .delete⟩,
    ⟨true, none, .update [⟨"amount", .column (some "Counts") "amount"⟩]⟩,
    ⟨false, none, .insert none [.column (some "Counts") "id", .column (some "Counts") "amount"]⟩]

/-- The clauses, with their names resolved. -/
def clauses : List Merge.Clause := [
  ⟨true, some (.binary .equal (.column 3) (.const (.integer 0))), .delete⟩,
  ⟨true, none, .update [⟨1, .column 3⟩]⟩,
  ⟨false, none, .insert [0, 1] [.column 2, .column 3]⟩]

theorem amounts_unique {name : String} {existing rows : List Row}
    (h : (rows.map (Table.keyValues [0])).Nodup) : (amounts name existing).table.Unique rows := by
  intro key hkey
  cases List.mem_singleton.mp hkey
  exact (List.pairwise_map.mp h).imp fun {_ _} hne hcollide => hne hcollide.1

/-- The counted item is updated, the one that is sold out is gone, the
one that was not counted stays, and the new one is behind it. -/
theorem stock_merged :
    ((Statement.merge count).execute ⟨.sqlServer, 2022⟩).perform stores =
      (.ok (.effect (.merged 3)), stores.setRows "stock"
        [[.integer 1, .integer 10], [.integer 3, .integer 9], [.integer 4, .integer 3]]) := by
  let stock :=
    amounts "Stock" [[.integer 1, .integer 5], [.integer 2, .integer 7], [.integer 3, .integer 9]]
  let p : Merge.Progress :=
    ⟨[⟨[.integer 1, .integer 5], .updated [.integer 1, .integer 10]⟩,
      ⟨[.integer 2, .integer 7], .deleted⟩, ⟨[.integer 3, .integer 9], .unmatched⟩],
      [[.integer 4, .integer 3]]⟩
  have hresolves : count.Resolves ⟨.sqlServer, 2022⟩ stores stock
      [[.integer 1, .integer 10], [.integer 2, .integer 0], [.integer 4, .integer 3]]
      (.binary .equal (.column 0) (.column 2)) clauses :=
    ⟨by rfl, _, _, by rfl, by rfl, by rfl, by rfl⟩
  have hmeans : Merge.Means stock.table (.binary .equal (.column 0) (.column 2)) clauses stock.rows
      [[.integer 1, .integer 10], [.integer 2, .integer 0], [.integer 4, .integer 3]] p :=
    Merge.takeSources_start_eq_ok.mp (by rfl)
  obtain ⟨hmerge, hunique⟩ := Statement.merge_means count ⟨.sqlServer, 2022⟩ stores
  have hfree := (hunique stock _ _ _ p hmeans (amounts_unique (by decide))).mpr
    (amounts_unique (by decide))
  exact (hmerge _ _).mpr ⟨stock, _, _, clauses, p, hresolves, hmeans, hfree, rfl, rfl⟩

end Merging

end DialectDb
