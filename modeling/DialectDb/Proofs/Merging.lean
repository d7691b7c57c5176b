/-
MERGE keeps a store valid. The target rows go through the loop over the
source rows as they were, each with its fate; so at the end, the rows
that MERGE has not written are some of those there were, in their order,
and collide with none of each other. The rows that it has written are
those that its check is about.
-/
import DialectDb.Proofs.Writing

namespace DialectDb.Merge

open DialectDb.Action

variable {t : Table}

-- ============================================================ invariant

/-- A fate under which the table still holds the row. -/
def Fate.Holds (t : Table) (fate : Fate) : Prop :=
  ∀ row, fate = .updated row → t.Holds row

/-- What holds between the source rows: the targets are the rows there
were, in their order, and what they are updated to and what is inserted
are rows that the table holds. -/
structure Progress.Sound (t : Table) (before : List Row) (p : Progress) : Prop where
  rows : p.targets.map (·.row) = before
  fates : ∀ target ∈ p.targets, target.fate.Holds t
  inserted : ∀ row ∈ p.inserted, t.Holds row

/-- The fate that a clause gives a row is such a fate. -/
theorem fateOf_holds {target input : Row} {action : Option ClauseAction} {fate : Fate}
    (h : fateOf t target input action = .ok fate) : fate.Holds t := by
  intro row hrow
  subst hrow
  unfold fateOf at h
  split at h
  · cases h
  · obtain ⟨_, -, h⟩ := Result.bind_eq_ok.mp h
    obtain ⟨_, hnormal, h⟩ := Result.map_eq_ok.mp h
    cases h
    exact Table.holds_of_normalizeRow hnormal
  · cases h
  · cases h

/-- Matching a source row leaves the targets' rows and their order, and
gives them such fates. -/
theorem matchTargets_sound {predicate : Formula} {clauses : List Clause} {source : Row}
    {targets after : List Target} {found : Bool}
    (h : matchTargets t predicate clauses source targets = .ok (found, after))
    (hfates : ∀ target ∈ targets, target.fate.Holds t) :
    after.map (·.row) = targets.map (·.row) ∧ ∀ target ∈ after, target.fate.Holds t := by
  -- along the target rows, each of which either gets a new fate or keeps
  -- the one it had
  induction targets generalizing after found with
  | nil =>
      cases h
      exact ⟨rfl, hfates⟩
  | cons target rest ih =>
      obtain ⟨hfirst, hrest⟩ := List.forall_mem_cons.mp hfates
      obtain ⟨_, -, h⟩ := Result.bind_eq_ok.mp h
      split at h
      · split at h
        · obtain ⟨action, -, h⟩ := Result.bind_eq_ok.mp h
          obtain ⟨fate, hfate, h⟩ := Result.bind_eq_ok.mp h
          obtain ⟨⟨_, others⟩, hothers, h⟩ := Result.bind_eq_ok.mp h
          cases h
          obtain ⟨hrows, hheld⟩ := ih hothers hrest
          refine ⟨?_, List.forall_mem_cons.mpr ⟨fateOf_holds hfate, hheld⟩⟩
          rw [List.map_cons, List.map_cons, hrows]
        · cases h
      · obtain ⟨⟨_, others⟩, hothers, h⟩ := Result.bind_eq_ok.mp h
        cases h
        obtain ⟨hrows, hheld⟩ := ih hothers hrest
        refine ⟨?_, List.forall_mem_cons.mpr ⟨hfirst, hheld⟩⟩
        rw [List.map_cons, List.map_cons, hrows]

/-- A row that is inserted for a source row is one that the table
holds. -/
theorem insertion_holds {clauses : List Clause} {source : Row} {new : Option Row}
    (h : insertion t clauses source = .ok new) : ∀ row ∈ new.toList, t.Holds row := by
  obtain ⟨action, -, h⟩ := Result.bind_eq_ok.mp h
  split at h
  · cases h
    exact fun _ hrow => absurd hrow List.not_mem_nil
  · obtain ⟨_, -, h⟩ := Result.bind_eq_ok.mp h
    obtain ⟨built, hbuilt, h⟩ := Result.map_eq_ok.mp h
    cases h
    intro row hrow
    rw [List.mem_singleton.mp hrow]
    exact Table.buildRow_holds hbuilt
  · cases h

/-- A source row keeps the invariant. -/
theorem takeSource_sound {predicate : Formula} {clauses : List Clause} {before : List Row}
    {source : Row} {p after : Progress} (hp : p.Sound t before)
    (h : takeSource t predicate clauses p source = .ok after) : after.Sound t before := by
  obtain ⟨⟨found, targets⟩, hmatch, h⟩ := Result.bind_eq_ok.mp h
  obtain ⟨hrows, hfates⟩ := matchTargets_sound hmatch hp.fates
  dsimp only at h
  split at h
  · cases h
    exact ⟨hrows.trans hp.rows, hfates, hp.inserted⟩
  · obtain ⟨new, hnew, h⟩ := Result.bind_eq_ok.mp h
    cases h
    refine ⟨hrows.trans hp.rows, hfates, fun row hrow => ?_⟩
    rcases List.mem_append.mp hrow with hrow | hrow
    · exact hp.inserted row hrow
    · exact insertion_holds hnew row hrow

theorem takeSources_sound {predicate : Formula} {clauses : List Clause} {before : List Row}
    {source : List Row} {p after : Progress} (hp : p.Sound t before)
    (h : takeSources t predicate clauses p source = .ok after) : after.Sound t before :=
  Result.foldlM_keeps (fun _ _ _ _ hcurrent hstep => takeSource_sound hcurrent hstep) hp h

/-- At the start no row has met its fate. -/
theorem sound_start (t : Table) (before : List Row) :
    Progress.Sound t before { targets := before.map fun row => ⟨row, .unmatched⟩ } := by
  constructor
  · rw [List.map_map]
    exact List.map_id before
  · intro target htarget row hrow
    obtain ⟨_, -, rfl⟩ := List.mem_map.mp htarget
    cases hrow
  · exact fun _ hrow => absurd hrow List.not_mem_nil

-- ========================================================== final rows

/-- A target row that is left and was not written is as it was. -/
theorem survivor_unwritten {target : Target} {r : WrittenRow} (h : target.survivor = some r)
    (hold : r.written = false) : r.row = target.row := by
  unfold Target.survivor at h
  split at h
  · cases h
    rfl
  · cases h
    rfl
  · cases h
    cases hold
  · cases h

/-- The final rows are rows that the table holds. -/
theorem Progress.Sound.rows_hold {before : List Row} {p : Progress} (h : p.Sound t before)
    (hbefore : ∀ row ∈ before, t.Holds row) : ∀ r ∈ p.rows, t.Holds r.row := by
  intro r hr
  rcases List.mem_append.mp hr with hr | hr
  · obtain ⟨target, htarget, hsurvivor⟩ := List.mem_filterMap.mp hr
    have hrow : t.Holds target.row :=
      hbefore _ (h.rows ▸ List.mem_map_of_mem htarget)
    unfold Target.survivor at hsurvivor
    split at hsurvivor
    · cases hsurvivor
      exact hrow
    · cases hsurvivor
      exact hrow
    · next row hfate =>
        cases hsurvivor
        exact h.fates target htarget row hfate
    · cases hsurvivor
  · obtain ⟨row, hrow, rfl⟩ := List.mem_map.mp hr
    exact h.inserted row hrow

/-- Of the final rows, those that were not written do not collide, if no
rows did before. -/
theorem Progress.Sound.old_unique {before : List Row} {p : Progress} (h : p.Sound t before)
    (hbefore : t.Unique before) {key : List Nat} (hkey : key ∈ t.uniqueKeys) :
    p.rows.Pairwise fun a b =>
      a.written = false → b.written = false → ¬Table.Collide key a.row b.row := by
  have htargets : p.targets.Pairwise fun a b => ¬Table.Collide key a.row b.row := by
    have hrows := hbefore key hkey
    rw [← h.rows] at hrows
    exact List.pairwise_map.mp hrows
  refine List.pairwise_append.mpr ⟨?_, ?_, ?_⟩
  · refine List.pairwise_filterMap.mpr (htargets.imp fun {a b} hab x hx y hy hxo hyo => ?_)
    rw [survivor_unwritten hx hxo, survivor_unwritten hy hyo]
    exact hab
  · exact List.pairwise_map.mpr (List.pairwise_of_forall fun _ _ hwritten => nomatch hwritten)
  · intro a _ b hb _ hwritten
    obtain ⟨_, -, rfl⟩ := List.mem_map.mp hb
    cases hwritten

/-- The places of the rows that were written. -/
theorem mem_writtenPlaces {rows : List WrittenRow} {i : Nat} :
    i ∈ writtenPlaces rows ↔ ∃ r, rows[i]? = some r ∧ r.written = true := by
  unfold writtenPlaces
  rw [List.mem_map]
  constructor
  · rintro ⟨⟨r, i⟩, hr, rfl⟩
    obtain ⟨hmem, hwritten⟩ := List.mem_filter.mp hr
    exact ⟨r, List.mk_mem_zipIdx_iff_getElem?.mp hmem, hwritten⟩
  · rintro ⟨r, hr, hwritten⟩
    exact ⟨(r, i), List.mem_filter.mpr ⟨List.mk_mem_zipIdx_iff_getElem?.mpr hr, hwritten⟩, rfl⟩

-- =============================================================== MERGE

/-- A merge ends with valid rows, if it starts with them. -/
theorem mergeRows_ensures (predicate : Formula) (clauses : List Clause) (source : List Row)
    {rows : Array Row} (h : t.ValidRows rows.toList) :
    (mergeRows t predicate clauses source).Ensures rows fun _ after =>
      t.ValidRows after.toList := by
  unfold mergeRows
  refine ensures_bind (ensures_get (ensures_bind (ensures_lift fun p hp => ?_)))
  have hsound := takeSources_sound (sound_start t rows.toList) hp
  refine ensures_bind (ensures_lift fun _ hcheck => ?_)
  refine ensures_bind (ensures_set (ensures_pure ⟨?_, ?_⟩))
  · intro row hrow
    obtain ⟨r, hr, rfl⟩ := List.mem_map.mp hrow
    exact hsound.rows_hold h.holds r hr
  · refine Table.unique_of_checkPlaces ?_ hcheck
    -- a final row at none of the checked places was not written
    intro key hkey i j a b hij hi hj ha hb
    rw [List.getElem?_map] at ha hb
    obtain ⟨x, hx, rfl⟩ := Option.map_eq_some_iff.mp ha
    obtain ⟨y, hy, rfl⟩ := Option.map_eq_some_iff.mp hb
    have hpair := Table.pairwise_at (hsound.old_unique h.unique hkey) hij hx hy
    refine hpair (Bool.eq_false_iff.mpr fun hwritten => hi ?_)
      (Bool.eq_false_iff.mpr fun hwritten => hj ?_)
    · exact mem_writtenPlaces.mpr ⟨_, hx, hwritten⟩
    · exact mem_writtenPlaces.mpr ⟨_, hy, hwritten⟩

theorem execute_valid (m : Merge) (version : DialectVersion) {s : Store} (h : s.Valid) :
    (m.execute version).Guarantees s fun _ after => after.Valid := by
  unfold execute
  refine guarantees_get_bind (guarantees_lift_bind fun source _ => ?_)
  refine guarantees_lift_bind fun _ _ => guarantees_lift_bind fun scope _ => ?_
  refine guarantees_lift_bind fun predicate _ => guarantees_lift_bind fun clauses _ => ?_
  refine guarantees_bind_pure (Store.mutate_valid h fun stored _ hvalid => ?_)
  refine (mergeRows_ensures predicate clauses _ hvalid.validRows).mono fun _ rows hrows => ?_
  exact .intro hvalid.schema hrows.holds hrows.unique

end DialectDb.Merge
