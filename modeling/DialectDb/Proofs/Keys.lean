/-
Unique keys. The statements check rows at different moments: INSERT each
row as it is written, UPDATE all rows it has written at its end, MERGE
those it has written among the final rows. What they have in common is
`unique_of_checked`: if the rows that were not written collide with none
of each other, and each row that was written is checked against all
others, then no two rows collide. It is enough to check one row of a
pair, since rows collide mutually.
-/
import DialectDb.Schema
import DialectDb.Proofs.Result

namespace DialectDb.Table

variable {t : Table}

-- =========================================================== collisions

/-- Two rows collide on a key if they have the same values there, none
of them NULL. -/
def Collide (key : List Nat) (a b : Row) : Prop :=
  keyValues key a = keyValues key b ∧ .null ∉ keyValues key a

theorem Collide.symm {key : List Nat} {a b : Row} (h : Collide key a b) : Collide key b a :=
  ⟨h.1.symm, h.1 ▸ h.2⟩

/-- Rows none of which collide on any key of the table. -/
def Unique (t : Table) (rows : List Row) : Prop :=
  ∀ key ∈ t.uniqueKeys, rows.Pairwise fun a b => ¬Collide key a b

theorem unique_nil : t.Unique [] := fun _ _ => .nil

theorem columnsWhere_lt {p : Column → Bool} {index : Nat} (h : index ∈ t.columnsWhere p) :
    index < t.columns.length := by
  obtain ⟨⟨c, place⟩, hmem, rfl⟩ := List.mem_map.mp h
  have hplace := List.mk_mem_zipIdx_iff_getElem?.mp (List.mem_of_mem_filter hmem)
  exact (List.getElem?_eq_some_iff.mp hplace).1

/-- Keys are of columns that there are. -/
theorem uniqueKeys_lt {key : List Nat} (hkey : key ∈ t.uniqueKeys) {index : Nat}
    (hindex : index ∈ key) : index < t.columns.length := by
  have hsingle : key ∈ (t.columnsWhere fun c => c.unique && !c.primaryKey).map (fun i => [i]) →
      index < t.columns.length := by
    intro hmem
    obtain ⟨i, hi, rfl⟩ := List.mem_map.mp hmem
    rw [List.mem_singleton.mp hindex]
    exact columnsWhere_lt hi
  unfold uniqueKeys at hkey
  dsimp only at hkey
  split at hkey
  · exact hsingle hkey
  · rcases List.mem_cons.mp hkey with rfl | hkey
    · exact columnsWhere_lt hindex
    · exact hsingle hkey

theorem Unique.sublist {rows kept : List Row} (h : t.Unique rows) (hkept : kept.Sublist rows) :
    t.Unique kept :=
  fun key hkey => (h key hkey).sublist hkept

-- =============================================================== checks

/-- A row has the given values at a key iff those are its values
there. -/
theorem hasKey_iff {row : Row} {key : List Nat} {values : List Value} :
    hasKey row key values = true ↔ keyValues key row = values := by
  induction key generalizing values with
  | nil => cases values <;> simp [hasKey, keyValues]
  | cons i key ih =>
      cases values with
      | nil => simp [hasKey, keyValues]
      | cons value values =>
          simp only [hasKey, Bool.and_eq_true, decide_eq_true_eq, ih, keyValues,
            List.map_cons, List.cons.injEq]

theorem hasKey_eq (key : List Nat) (values : List Value) :
    (hasKey · key values) = fun row => keyValues key row == values := by
  funext row
  rw [Bool.eq_iff_iff, hasKey_iff, beq_iff_eq]

/-- The rows other than the one at a place are those at other places. -/
theorem mem_others_some {rows : Array Row} {index : Nat} {other : Row} :
    other ∈ others rows (some index) ↔ ∃ j ≠ index, rows.toList[j]? = some other := by
  have hothers : (others rows (some index)).toList = rows.toList.eraseIdx index := by
    show (rows.eraseIdxIfInBounds index).toList = _
    rw [Array.eraseIdxIfInBounds_eq]
    split
    · exact Array.toList_eraseIdx
    · next hout => rw [List.eraseIdx_of_length_le (Nat.le_of_not_lt hout)]
  rw [← Array.mem_toList_iff, hothers, List.mem_eraseIdx_iff_getElem?]

theorem mem_of_mem_others {rows : Array Row} {skip : Option Nat} {other : Row}
    (h : other ∈ others rows skip) : other ∈ rows.toList := by
  cases skip with
  | none => exact Array.mem_toList_iff.mpr h
  | some index =>
      obtain ⟨j, -, hj⟩ := mem_others_some.mp h
      exact List.mem_of_getElem? hj

/-- The check of a key succeeds iff the row collides with none of the
others. -/
theorem checkKey_eq_ok {rows : Array Row} {row : Row} {skip : Option Nat} {key : List Nat} :
    t.checkKey rows row skip key = .ok () ↔
      ∀ other ∈ others rows skip, ¬Collide key row other := by
  have hcheck : (!(keyValues key row).contains .null
      && (others rows skip).any (hasKey · key (keyValues key row))) = true ↔
      ∃ other ∈ others rows skip, Collide key row other := by
    rw [Bool.and_eq_true, Array.any_eq_true']
    simp only [hasKey_iff, Bool.not_eq_true', List.contains_eq_mem, decide_eq_false_iff_not]
    constructor
    · rintro ⟨hnull, other, hother, heq⟩
      exact ⟨other, hother, heq.symm, hnull⟩
    · rintro ⟨other, hother, heq, hnull⟩
      exact ⟨hnull, other, hother, heq.symm⟩
  unfold checkKey
  dsimp only
  split
  · next h =>
      obtain ⟨other, hother, hcollide⟩ := hcheck.mp h
      exact ⟨nofun, fun hfree => absurd hcollide (hfree other hother)⟩
  · next h =>
      exact ⟨fun _ other hother hcollide => h (hcheck.mpr ⟨other, hother, hcollide⟩),
        fun _ => rfl⟩

/-- The check of a row succeeds iff it collides with none of the others
on any key. -/
theorem checkUnique_eq_ok {rows : Array Row} {row : Row} {skip : Option Nat} :
    t.checkUnique rows row skip = .ok () ↔
      ∀ key ∈ t.uniqueKeys, ∀ other ∈ others rows skip, ¬Collide key row other := by
  unfold checkUnique
  rw [Result.forM_eq_ok]
  simp only [checkKey_eq_ok]

-- ======================================================= what they check

/-- Of elements that are related pairwise, any two at places in this
order are. -/
theorem pairwise_at {α : Type} {R : α → α → Prop} {items : List α} (h : items.Pairwise R)
    {i j : Nat} {a b : α} (hij : i < j) (ha : items[i]? = some a) (hb : items[j]? = some b) :
    R a b := by
  obtain ⟨hi, rfl⟩ := List.getElem?_eq_some_iff.mp ha
  obtain ⟨hj, rfl⟩ := List.getElem?_eq_some_iff.mp hb
  exact List.pairwise_iff_getElem.mp h i j hi hj hij

/-- Rows collide nowhere if those that were not written do not among
each other, and each that was written collides with no other. -/
theorem unique_of_checked {rows : List Row} (written : Nat → Prop)
    (old : ∀ key ∈ t.uniqueKeys, ∀ i j a b, i < j → ¬written i → ¬written j →
      rows[i]? = some a → rows[j]? = some b → ¬Collide key a b)
    (new : ∀ key ∈ t.uniqueKeys, ∀ i j a b, i ≠ j → written i →
      rows[i]? = some a → rows[j]? = some b → ¬Collide key a b) :
    t.Unique rows := by
  intro key hkey
  rw [List.pairwise_iff_getElem]
  intro i j hi hj hij
  have hrow := List.getElem?_eq_getElem hi
  have hother := List.getElem?_eq_getElem hj
  by_cases hwi : written i
  · exact new key hkey i j _ _ (Nat.ne_of_lt hij) hwi hrow hother
  · by_cases hwj : written j
    · -- only the later row was checked, but rows collide mutually
      intro hcollide
      exact new key hkey j i _ _ (Nat.ne_of_gt hij) hwj hother hrow hcollide.symm
    · exact old key hkey i j _ _ hij hwi hwj hrow hother

theorem Unique.push {rows : Array Row} {row : Row} (h : t.Unique rows.toList)
    (hcheck : t.checkUnique rows row none = .ok ()) : t.Unique (rows.push row).toList := by
  intro key hkey
  rw [Array.toList_push, List.pairwise_append]
  refine ⟨h key hkey, List.pairwise_singleton _ _, ?_⟩
  intro a ha b hb hcollide
  rw [List.mem_singleton.mp hb] at hcollide
  exact checkUnique_eq_ok.mp hcheck key hkey a (Array.mem_toList_iff.mp ha) hcollide.symm

/-- A row that is checked against all rows but one can take the place of
that one. -/
theorem Unique.set {rows : Array Row} {row : Row} {index : Nat} (h : t.Unique rows.toList)
    (hcheck : t.checkUnique rows row (some index) = .ok ()) :
    t.Unique (rows.setIfInBounds index row).toList := by
  rw [Array.toList_setIfInBounds]
  refine unique_of_checked (· = index) ?_ ?_
  · intro key hkey i j a b hij hi hj ha hb
    rw [List.getElem?_set_ne (Ne.symm hi)] at ha
    rw [List.getElem?_set_ne (Ne.symm hj)] at hb
    exact pairwise_at (h key hkey) hij ha hb
  · rintro key hkey i j a b hij rfl ha hb
    rw [List.getElem?_set_ne hij] at hb
    have hrow : a = row := by
      rw [List.getElem?_set_self'] at ha
      obtain ⟨_, -, rfl⟩ := Option.map_eq_some_iff.mp ha
      rfl
    subst hrow
    exact checkUnique_eq_ok.mp hcheck key hkey b (mem_others_some.mpr ⟨j, Ne.symm hij, hb⟩)

/-- The check of some places succeeds iff the rows there collide with no
others. -/
theorem checkPlaces_eq_ok {rows : Array Row} {places : List Nat} :
    t.checkPlaces rows places = .ok () ↔
      ∀ i ∈ places, t.checkUnique rows (rows[i]?.getD []) (some i) = .ok () :=
  Result.forM_eq_ok

/-- Rows collide nowhere if those at some places are checked, and the
rest do not collide among each other. -/
theorem unique_of_checkPlaces {rows : Array Row} {places : List Nat}
    (old : ∀ key ∈ t.uniqueKeys, ∀ i j a b, i < j → i ∉ places → j ∉ places →
      rows.toList[i]? = some a → rows.toList[j]? = some b → ¬Collide key a b)
    (hcheck : t.checkPlaces rows places = .ok ()) : t.Unique rows.toList := by
  refine unique_of_checked (· ∈ places) old ?_
  intro key hkey i j a b hij hi ha hb
  have hchecked := checkUnique_eq_ok.mp (checkPlaces_eq_ok.mp hcheck i hi) key hkey b
    (mem_others_some.mpr ⟨j, Ne.symm hij, hb⟩)
  rw [← Array.getElem?_toList, ha] at hchecked
  exact hchecked

end DialectDb.Table
