/-
The sort keys of ORDER BY. Each is an alias or a position of the result,
or an expression on the row that a row of the result is made from.

The program puts the values of the expressions behind those of the
result, as hidden columns, and sorts by places. What is shown is that a
place holds the value of its sort key (`KeySource.Placed.gives`) and that
to sort the rows with hidden columns is to sort those of the result by
the values of their sort keys (`KeySource.sortRows_project_iff`).
-/
import DialectDb.Proofs.GroupedValues
import DialectDb.Proofs.NameSafety
import DialectDb.Proofs.TotalOrder

namespace DialectDb

-- ======================================================= stable sorting

section StableSort

variable {α β κ : Type}

/-- Items in the order of their keys, of which those with the same key
keep their order: marked with their places, each comes before the next
by its key or, where these are the same, by its place. -/
def StableSort (compare : κ → κ → Ordering) (items : List (κ × α)) (sorted : List α) : Prop :=
  ∃ placed : List ((κ × α) × Nat), placed.Perm items.zipIdx ∧
    placed.Pairwise (fun a b =>
      compare a.1.1 b.1.1 = .lt ∨ compare a.1.1 b.1.1 = .eq ∧ a.2 < b.2) ∧
    sorted = placed.map (·.1.2)

/-- There is one such order. -/
theorem StableSort.unique {compare : κ → κ → Ordering} {items : List (κ × α)}
    {sorted others : List α}
    (hswap : ∀ a ∈ items, ∀ b ∈ items, compare b.1 a.1 = (compare a.1 b.1).swap)
    (h : StableSort compare items sorted) (hothers : StableSort compare items others) :
    sorted = others := by
  obtain ⟨placed, hperm, hpairwise, rfl⟩ := h
  obtain ⟨replaced, hperm', hpairwise', rfl⟩ := hothers
  have hmem (a : (κ × α) × Nat) (ha : a ∈ placed) : a.1 ∈ items :=
    List.fst_mem_of_mem_zipIdx (hperm.mem_iff.mp ha)
  have hsame : placed = replaced := by
    refine List.Perm.eq_of_pairwise (fun a b ha hb hab hba => ?_) hpairwise hpairwise'
      (hperm.trans hperm'.symm)
    rw [hswap a.1 (hmem a ha) b.1 (hmem b ((hperm.trans hperm'.symm).mem_iff.mpr hb))] at hba
    rcases hab with hab | ⟨hab, hlt⟩
    · simp [hab] at hba
    · simp [hab, Nat.not_lt_of_lt hlt] at hba
  rw [hsame]

variable {compare : α → α → Ordering} [Std.TransCmp compare]

/-- Sorted items that are marked with their places follow each other by
the order or by their places. -/
theorem exists_placed (items : List α) : ∃ placed : List (α × Nat), placed.Perm items.zipIdx ∧
    placed.Pairwise (fun a b => compare a.1 b.1 = .lt ∨ compare a.1 b.1 = .eq ∧ a.2 < b.2) ∧
    placed.map (·.1) = items.mergeSort fun a b => compare a b != .gt := by
  have hle (a b : α) : (compare a b != .gt) = (compare a b).isLE := by
    cases compare a b <;> rfl
  have htrans (a b c : α) : (compare a b != .gt) = true → (compare b c != .gt) = true →
      (compare a c != .gt) = true := by
    rw [hle, hle, hle]
    exact Std.TransCmp.isLE_trans
  have hswap (a b : α) : compare b a = (compare a b).swap := Std.OrientedCmp.eq_swap
  have htotal (a b : α) : (compare a b != .gt || compare b a != .gt) = true := by
    rw [hswap a b]
    cases compare a b <;> rfl
  have hperm := List.mergeSort_perm items.zipIdx (List.zipIdxLE fun a b => compare a b != .gt)
  have hplaces : (items.zipIdx.map Prod.snd).Nodup := by
    rw [List.zipIdx_map_snd]
    exact List.nodup_range'
  refine ⟨_, hperm, ?_, List.mergeSort_zipIdx⟩
  refine (List.pairwise_mergeSort (List.zipIdxLE_trans htrans) (List.zipIdxLE_total htotal)
    items.zipIdx).imp₂ (fun a b hab hne => ?_)
      (List.pairwise_map.mp ((hperm.map Prod.snd).nodup_iff.mpr hplaces))
  simp only [List.zipIdxLE, hswap a.1 b.1] at hab
  cases hcompare : compare a.1 b.1 with
  | lt => exact .inl rfl
  | eq =>
      rw [hcompare] at hab
      exact .inr ⟨rfl, Nat.lt_of_le_of_ne (by simpa using hab) hne⟩
  | gt =>
      rw [hcompare] at hab
      cases hab

/-- Items are in the order of their keys iff they are sorted by an order
that agrees with that of the keys. -/
theorem stableSort_map_iff {order : κ → κ → Ordering} {key : α → κ} {f : α → β} {items : List α}
    (horder : ∀ a ∈ items, ∀ b ∈ items, order (key a) (key b) = compare a b) {sorted : List β} :
    StableSort order (items.map fun a => (key a, f a)) sorted ↔
      sorted = (items.mergeSort fun a b => compare a b != .gt).map f := by
  have hstable : StableSort order (items.map fun a => (key a, f a))
      ((items.mergeSort fun a b => compare a b != .gt).map f) := by
    obtain ⟨placed, hperm, hpairwise, hsorted⟩ := @exists_placed _ compare _ items
    have hmem (a : α × Nat) (ha : a ∈ placed) : a.1 ∈ items :=
      List.fst_mem_of_mem_zipIdx (hperm.mem_iff.mp ha)
    refine ⟨placed.map (Prod.map (fun a => (key a, f a)) id), ?_, ?_, ?_⟩
    · rw [List.zipIdx_map]
      exact hperm.map _
    · refine List.pairwise_map.mpr (hpairwise.imp_of_mem fun {a b} ha hb hab => ?_)
      rwa [← horder a.1 (hmem a ha) b.1 (hmem b hb)] at hab
    · rw [← hsorted, List.map_map, List.map_map]
      rfl
  have hswap : ∀ a ∈ items.map fun a => (key a, f a), ∀ b ∈ items.map fun a => (key a, f a),
      order b.1 a.1 = (order a.1 b.1).swap := by
    simp only [List.forall_mem_map]
    intro a ha b hb
    rw [horder a ha b hb, horder b hb a ha]
    exact Std.OrientedCmp.eq_swap
  exact ⟨fun h => h.unique hswap hstable, fun h => h ▸ hstable⟩

end StableSort

-- ============================================================= formulas

namespace Formula

theorem evalList_eq_mapM (row : Row) (fs : List Formula) :
    evalList row fs = fs.mapM (eval row) := by
  induction fs with
  | nil => rfl
  | cons f fs ih =>
      rw [evalList, List.mapM_cons, ih]

theorem evalList_append_eq_ok {row values : Row} {fs gs : List Formula} :
    evalList row (fs ++ gs) = .ok values ↔ ∃ first rest, evalList row fs = .ok first ∧
      evalList row gs = .ok rest ∧ values = first ++ rest := by
  simp only [evalList_eq_mapM, List.mapM_append, Result.bind_eq_ok, Result.pure_eq_ok]
  constructor
  · rintro ⟨first, hfirst, rest, hrest, rfl⟩
    exact ⟨first, rest, hfirst, hrest, rfl⟩
  · rintro ⟨first, rest, hfirst, hrest, rfl⟩
    exact ⟨first, hfirst, rest, hrest, rfl⟩

end Formula

/-- Rows can be projected iff they can be read and the formulas be
evaluated on each. -/
theorem Rows.collect_project_eq_ok {rows : Rows} {formulas : List Formula} {read : List Row} :
    (rows.project formulas).collect = .ok read ↔ ∃ inputs, rows.collect = .ok inputs ∧
      List.Forall₂ (fun input row => Formula.evalList input formulas = .ok row) inputs read := by
  simp only [collect_eq, toList_project, List.mapM_map, Result.mapM_eq_ok, Function.comp_apply, id_eq,
    Result.bind_eq_ok]
  exact Result.forall₂_comp_iff

-- ============================================================ sort keys

/-- What a sort key is the value of: a column of the result, or a formula
on the row that a row of the result is made from. -/
inductive KeySource
  | output (place : Nat)
  | formula (f : Formula)

/-- The value that a row is sorted by. -/
def OrderKey.value (row : Row) (key : OrderKey) : Value :=
  row[key.index]?.getD .null

/-- The order of two values: NULL comes before all others. -/
def Value.nullsFirst : Value → Value → Ordering
  | .null, .null => .eq
  | .null, _ => .lt
  | _, .null => .gt
  | a, b => a.totalCompare b

def SortDirection.apply : SortDirection → Ordering → Ordering
  | .ascending, ordering => ordering
  | .descending, ordering => ordering.swap

/-- The order of two rows by the values of their sort keys: the first key
in which these differ decides. -/
def compareTuples : List SortDirection → List Value → List Value → Ordering
  | direction :: directions, a :: as, b :: bs =>
    (direction.apply (a.nullsFirst b)).then (compareTuples directions as bs)
  | _, _, _ => .eq

theorem Value.nullsFirst_eq (a b : Value) : a.nullsFirst b = a.totalCompare b := by
  cases a <;> cases b <;> rfl

theorem OrderKey.compare_eq (key : OrderKey) (a b : Row) : key.compare a b =
    key.direction.apply ((OrderKey.value a key).nullsFirst (OrderKey.value b key)) := by
  rw [Value.nullsFirst_eq]
  unfold OrderKey.compare SortDirection.apply
  cases key.direction <;> rfl

theorem compareRows_eq (keys : List OrderKey) (a b : Row) :
    compareRows keys a b = compareTuples (keys.map (·.direction)) (keys.map (OrderKey.value a))
      (keys.map (OrderKey.value b)) := by
  induction keys with
  | nil => rfl
  | cons key keys ih =>
      rw [List.map_cons, List.map_cons, List.map_cons, compareTuples, ← ih, ← OrderKey.compare_eq]
      rfl

instance (key : OrderKey) : Std.TransCmp key.compare := by
  have hascending : Std.TransCmp fun a b =>
      (OrderKey.value a key).totalCompare (OrderKey.value b key) :=
    inferInstanceAs (Std.TransCmp (Ordering.byKey (OrderKey.value · key) Value.totalCompare))
  have hcompare : key.compare = fun a b =>
      key.direction.apply ((OrderKey.value a key).totalCompare (OrderKey.value b key)) := by
    funext a b
    rw [OrderKey.compare_eq, Value.nullsFirst_eq]
  rw [hcompare]
  cases key.direction with
  | ascending => exact hascending
  | descending =>
      have hswap : (fun a b => ((OrderKey.value a key).totalCompare (OrderKey.value b key)).swap) =
          fun a b => (OrderKey.value b key).totalCompare (OrderKey.value a key) :=
        funext fun a => funext fun b => Std.OrientedCmp.eq_swap.symm
      unfold SortDirection.apply
      rw [hswap]
      exact Std.TransCmp.opposite

instance (keys : List OrderKey) : Std.TransCmp (compareRows keys) := by
  induction keys with
  | nil => exact { eq_swap := rfl, isLE_trans := fun _ _ => rfl }
  | cons key keys ih => exact inferInstanceAs (Std.TransCmp (compareLex key.compare (compareRows keys)))

namespace KeySource

/-- What an expression in ORDER BY refers to, given the aliases of the
columns of the result: the first of them with an alias of this name, the
one at a position counted from 1, or in all other cases the expression
itself. -/
inductive Refers (scope : Scope) (aliases : List (Option String)) : Expr → KeySource → Prop
  | named {name own : String} {place : Nat} (found : aliases[place]? = some (some own))
      (same : Text.sameName own name = true)
      (first : ∀ i < place, ∀ other, aliases[i]? = some (some other) →
        Text.sameName other name = false) :
      Refers scope aliases (.column none name) (.output place)
  | position {n : Int64} (low : 1 ≤ n.toInt) (high : n.toInt ≤ aliases.length) :
      Refers scope aliases (.literal (.integer n)) (.output (n.toInt - 1).toNat)
  | expression {e : Expr} {f : Formula}
      (unnamed : ∀ name own, e = .column none name → some own ∈ aliases →
        Text.sameName own name = false)
      (unplaced : ∀ n, e ≠ .literal (.integer n)) (resolved : scope.resolve e = .ok f) :
      Refers scope aliases e (.formula f)

/-- The value of a sort key for a row of the result and the one that it
is made from. -/
inductive Gives (input out : Row) : KeySource → Value → Prop
  | output {place : Nat} {value : Value} (found : out[place]? = some value) :
      Gives input out (.output place) value
  | formula {f : Formula} {value : Value} (evaluated : f.eval input = .ok value) :
      Gives input out (.formula f) value

def formula? : KeySource → Option Formula
  | output _ => none
  | formula f => some f

variable {scope : Scope} {aliases : List (Option String)} {e : Expr} {source : KeySource}
  {hidden : List Formula}

/-- The place of a sort key in a row with columns of the result and
hidden ones behind them, to which it may add one. -/
def place (width : Nat) (hidden : List Formula) : KeySource → Nat × List Formula
  | output place => (place, hidden)
  | formula f => (width + hidden.length, hidden ++ [f])

/-- An alias is found at the first place that has it. -/
theorem aliasPlace?_column {name : String} {index : Nat} :
    aliasPlace? aliases (.column none name) = some index ↔
      ∃ own, aliases[index]? = some (some own) ∧ Text.sameName own name = true ∧
        ∀ i < index, ∀ other, aliases[i]? = some (some other) →
          Text.sameName other name = false := by
  unfold aliasPlace?
  rw [List.findIdx?_eq_some_iff_getElem]
  constructor
  · rintro ⟨hindex, hfound, hfirst⟩
    obtain ⟨own, hown, hsame⟩ := (Option.any_eq_true ..).mp hfound
    refine ⟨own, List.getElem?_eq_some_iff.mpr ⟨hindex, hown⟩, hsame, fun i hi other hother => ?_⟩
    obtain ⟨_, hother⟩ := List.getElem?_eq_some_iff.mp hother
    have hnot := hfirst i hi
    rw [hother, Option.any_some] at hnot
    exact Bool.eq_false_iff.mpr hnot
  · rintro ⟨own, hfound, hsame, hfirst⟩
    obtain ⟨hindex, hown⟩ := List.getElem?_eq_some_iff.mp hfound
    refine ⟨hindex, by rw [hown]; exact hsame, fun i hi => ?_⟩
    have hinside : i < aliases.length := Nat.lt_trans hi hindex
    cases hother : aliases[i] with
    | none => simp
    | some other =>
        have hnot := hfirst i hi other (List.getElem?_eq_some_iff.mpr ⟨hinside, hother⟩)
        simp [hnot]

theorem aliasPlace?_eq_none : aliasPlace? aliases e = none ↔
    ∀ name own, e = .column none name → some own ∈ aliases → Text.sameName own name = false := by
  unfold aliasPlace?
  split
  · next column =>
      rw [List.findIdx?_eq_none_iff]
      constructor
      · rintro hnone name own hname hown
        cases hname
        exact hnone (some own) hown
      · intro hnone own? hown
        cases own? with
        | none => rfl
        | some own => exact hnone column own rfl hown
  · next hcolumn => exact iff_of_true rfl fun name _ hname => absurd hname (hcolumn name)

theorem orderPlace_of_none (hplace : aliasPlace? aliases e = none)
    (hliteral : ∀ n, e ≠ .literal (.integer n)) : orderPlace scope aliases e hidden = do
      return (aliases.length + hidden.length, hidden ++ [← scope.resolve e]) := by
  unfold orderPlace
  rw [hplace]
  split
  · next heq => cases heq
  · exact absurd rfl (hliteral _)
  · rfl

theorem Refers.orderPlace (h : Refers scope aliases e source) (hidden : List Formula) :
    orderPlace scope aliases e hidden = .ok (source.place aliases.length hidden) := by
  cases h with
  | named found same first =>
      unfold DialectDb.orderPlace
      rw [aliasPlace?_column.mpr ⟨_, found, same, first⟩]
      rfl
  | @position n low high =>
      have hordinal : ordinal n aliases.length = .ok (n.toInt - 1).toNat := if_pos ⟨low, high⟩
      show (do return (← ordinal n aliases.length, hidden)) = _
      rw [hordinal]
      rfl
  | expression unnamed unplaced resolved =>
      rw [orderPlace_of_none (aliasPlace?_eq_none.mpr unnamed) unplaced, resolved]
      rfl

theorem exists_refers {placed : Nat × List Formula}
    (h : orderPlace scope aliases e hidden = .ok placed) :
    ∃ source, Refers scope aliases e source := by
  cases hplace : aliasPlace? aliases e with
  | some index =>
      unfold aliasPlace? at hplace
      split at hplace
      · obtain ⟨own, hfound, hsame, hfirst⟩ := aliasPlace?_column.mp hplace
        exact ⟨_, .named hfound hsame hfirst⟩
      · cases hplace
  | none =>
      by_cases hliteral : ∃ n, e = .literal (.integer n)
      · obtain ⟨n, rfl⟩ := hliteral
        obtain ⟨index, hindex, -⟩ := Result.bind_eq_ok.mp h
        by_cases hinside : 1 ≤ n.toInt ∧ n.toInt ≤ aliases.length
        · exact ⟨_, .position hinside.1 hinside.2⟩
        · cases hindex.symm.trans (if_neg hinside)
      · have hother : ∀ n, e ≠ .literal (.integer n) := fun n hn => hliteral ⟨n, hn⟩
        rw [orderPlace_of_none hplace hother] at h
        obtain ⟨f, hf, -⟩ := Result.bind_eq_ok.mp h
        exact ⟨.formula f, .expression (aliasPlace?_eq_none.mp hplace) hother hf⟩

-- ======================================================= all sort keys

variable {orderBy : List SortKey} {sources : List KeySource}

/-- What the sort keys of a query refer to. -/
abbrev RefersAll (scope : Scope) (aliases : List (Option String)) (orderBy : List SortKey)
    (sources : List KeySource) : Prop :=
  List.Forall₂ (fun key source => Refers scope aliases key.expr source) orderBy sources

/-- Where a sort key is found in a row with hidden columns. -/
inductive Placed (width : Nat) (hidden : List Formula) : KeySource → OrderKey → Prop
  | output {place : Nat} {direction : SortDirection} (inside : place < width) :
      Placed width hidden (.output place) ⟨place, direction⟩
  | formula {f : Formula} {place : Nat} {direction : SortDirection}
      (found : hidden[place]? = some f) :
      Placed width hidden (.formula f) ⟨width + place, direction⟩

theorem Refers.inside {place : Nat} (h : Refers scope aliases e (.output place)) :
    place < aliases.length := by
  cases h with
  | named found => exact (List.getElem?_eq_some_iff.mp found).1
  | position low high => omega

/-- The expressions become hidden columns, in their order. -/
theorem RefersAll.orderKeys (h : RefersAll scope aliases orderBy sources)
    (hidden : List Formula) :
    ∃ keys, orderKeys scope aliases orderBy hidden =
        .ok (keys, hidden ++ sources.filterMap formula?) ∧
      List.Forall₂ (Placed aliases.length (hidden ++ sources.filterMap formula?)) sources keys ∧
      keys.map (·.direction) = orderBy.map (·.direction) := by
  induction h generalizing hidden with
  | nil => exact ⟨[], by rw [List.filterMap_nil, List.append_nil]; rfl, .nil, rfl⟩
  | @cons key source orderBy sources hfirst _ ih =>
      unfold DialectDb.orderKeys
      rw [hfirst.orderPlace hidden]
      cases source with
      | output place =>
          obtain ⟨keys, hkeys, hplaced, hdirections⟩ := ih hidden
          refine ⟨⟨place, key.direction⟩ :: keys, ?_, .cons (.output hfirst.inside) hplaced, ?_⟩
          · show (DialectDb.orderKeys scope aliases orderBy hidden >>= _) = _
            rw [hkeys]
            rfl
          · rw [List.map_cons, List.map_cons, hdirections]
      | formula f =>
          obtain ⟨keys, hkeys, hplaced, hdirections⟩ := ih (hidden ++ [f])
          have hformulas : (formula f :: sources).filterMap formula? =
              f :: sources.filterMap formula? := rfl
          rw [hformulas, List.append_cons]
          refine ⟨⟨aliases.length + hidden.length, key.direction⟩ :: keys, ?_,
            .cons (.formula ?_) hplaced, ?_⟩
          · show (DialectDb.orderKeys scope aliases orderBy (hidden ++ [f]) >>= _) = _
            rw [hkeys]
            rfl
          · simp
          · rw [List.map_cons, List.map_cons, hdirections]

theorem exists_refersAll {ordered : List OrderKey × List Formula}
    (h : orderKeys scope aliases orderBy hidden = .ok ordered) :
    ∃ sources, RefersAll scope aliases orderBy sources := by
  induction orderBy generalizing hidden ordered with
  | nil => exact ⟨[], .nil⟩
  | cons key orderBy ih =>
      obtain ⟨placed, hplaced, h⟩ := Result.bind_eq_ok.mp h
      obtain ⟨rest, hrest, -⟩ := Result.bind_eq_ok.mp h
      obtain ⟨source, hsource⟩ := exists_refers hplaced
      obtain ⟨sources, hsources⟩ := ih hrest
      exact ⟨source :: sources, .cons hsource hsources⟩

-- ============================================================ key values

variable {input out values : Row} {keys : List OrderKey} {tuple : List Value}

/-- The values of all sort keys. -/
abbrev GivesAll (input out : Row) (sources : List KeySource) (tuple : List Value) : Prop :=
  List.Forall₂ (Gives input out) sources tuple

theorem Gives.unique {value other : Value} (h : Gives input out source value)
    (hother : Gives input out source other) : value = other := by
  cases h with
  | output found =>
      cases hother with
      | output found' => exact Option.some.inj (found.symm.trans found')
  | formula evaluated =>
      cases hother with
      | formula evaluated' => exact Except.ok.inj (evaluated.symm.trans evaluated')

theorem GivesAll.unique {others : List Value} (h : GivesAll input out sources tuple)
    (hothers : GivesAll input out sources others) : tuple = others := by
  refine Result.forall₂_unique ?_ h hothers
  exact fun _ _ _ _ hvalue hother => hvalue.unique hother

/-- A row with hidden columns has the values of the sort keys in their
places. -/
theorem Placed.gives {key : OrderKey} (h : Placed out.length hidden source key)
    (hvalues : Formula.evalList input hidden = .ok values) :
    Gives input out source (key.value (out ++ values)) := by
  unfold OrderKey.value
  cases h with
  | @output place direction inside =>
      rw [List.getElem?_append_left inside, List.getElem?_eq_getElem inside]
      exact .output (List.getElem?_eq_getElem inside)
  | @formula f place direction found =>
      obtain ⟨value, hvalue, heval⟩ := Formula.getElem?_evalList hvalues found
      rw [List.getElem?_append_right (Nat.le_add_right ..), Nat.add_sub_cancel_left, hvalue]
      exact .formula heval

theorem placed_gives (h : List.Forall₂ (Placed out.length hidden) sources keys)
    (hvalues : Formula.evalList input hidden = .ok values) :
    GivesAll input out sources (keys.map (OrderKey.value (out ++ values))) := by
  rw [GivesAll, List.forall₂_map_right_iff]
  exact h.imp fun _ _ hkey => hkey.gives hvalues

/-- The expressions among the sort keys can be evaluated iff all sort keys
have values. -/
theorem exists_evalList_iff
    (h : List.Forall₂ (Placed out.length (sources.filterMap formula?)) sources keys) :
    (∃ values, Formula.evalList input (sources.filterMap formula?) = .ok values) ↔
      ∃ tuple, GivesAll input out sources tuple := by
  constructor
  · rintro ⟨values, hvalues⟩
    exact ⟨_, placed_gives h hvalues⟩
  · intro htuple
    have hgives := Result.exists_forall₂.mp htuple
    simp only [Formula.evalList_eq_mapM, Result.mapM_eq_ok]
    refine Result.exists_forall₂.mpr fun f hf => ?_
    obtain ⟨source, hsource, hformula⟩ := List.mem_filterMap.mp hf
    obtain ⟨value, hvalue⟩ := hgives source hsource
    cases hvalue with
    | output => cases hformula
    | formula evaluated =>
        cases hformula
        exact ⟨value, evaluated⟩

/-- A row with hidden columns is one of the result with the values of its
sort keys. -/
theorem evalList_hidden_iff {formulas : List Formula}
    (h : List.Forall₂ (Placed formulas.length (sources.filterMap formula?)) sources keys)
    {item : List Value × Row} :
    (∃ full, Formula.evalList input (formulas ++ sources.filterMap formula?) = .ok full ∧
        (keys.map (OrderKey.value full), full.take formulas.length) = item) ↔
      Formula.evalList input formulas = .ok item.2 ∧ GivesAll input item.2 sources item.1 := by
  simp only [Formula.evalList_append_eq_ok]
  constructor
  · rintro ⟨_, ⟨out, values, hout, hvalues, rfl⟩, rfl⟩
    rw [← Formula.length_evalList input hout] at h ⊢
    rw [List.take_left]
    exact ⟨hout, placed_gives h hvalues⟩
  · obtain ⟨tuple, out⟩ := item
    rintro ⟨hout, htuple⟩
    rw [← Formula.length_evalList input hout] at h ⊢
    obtain ⟨values, hvalues⟩ := (exists_evalList_iff h).mpr ⟨tuple, htuple⟩
    refine ⟨out ++ values, ⟨out, values, hout, hvalues, rfl⟩, ?_⟩
    rw [List.take_left, GivesAll.unique (placed_gives h hvalues) htuple]

/-- To sort rows with hidden columns is to sort the rows of the result by
the values of their sort keys. -/
theorem sortRows_project_iff {rows : Rows} {formulas : List Formula}
    (h : List.Forall₂ (Placed formulas.length (sources.filterMap formula?)) sources keys)
    {sorted : List Row} :
    (∃ fulls, (rows.project (formulas ++ sources.filterMap formula?)).collect = .ok fulls ∧
        (sortRows keys fulls).map (·.take formulas.length) = sorted) ↔
      ∃ inputs items, rows.collect = .ok inputs ∧
        List.Forall₂ (fun input (item : List Value × Row) =>
          Formula.evalList input formulas = .ok item.2 ∧ GivesAll input item.2 sources item.1)
            inputs items ∧
        StableSort (compareTuples (keys.map (·.direction))) items sorted := by
  have hsort (fulls : List Row) : StableSort (compareTuples (keys.map (·.direction)))
      (fulls.map fun full => (keys.map (OrderKey.value full), full.take formulas.length)) sorted ↔
        (sortRows keys fulls).map (·.take formulas.length) = sorted := by
    rw [stableSort_map_iff fun a _ b _ => (compareRows_eq keys a b).symm]
    exact eq_comm
  simp only [Rows.collect_project_eq_ok, ← evalList_hidden_iff h, Result.forall₂_comp_iff, ← hsort]
  constructor
  · rintro ⟨fulls, ⟨inputs, hinputs, hfulls⟩, hsorted⟩
    refine ⟨inputs, _, hinputs, ⟨fulls, hfulls, ?_⟩, hsorted⟩
    exact List.forall₂_map_right_iff.mpr (List.forall₂_same.mpr fun _ _ => rfl)
  · rintro ⟨inputs, items, hinputs, ⟨fulls, hfulls, hitems⟩, hsorted⟩
    have hmap : fulls.map (fun full =>
        (keys.map (OrderKey.value full), full.take formulas.length)) = items :=
      List.forall₂_eq_eq_eq.le _ _ (List.forall₂_map_left_iff.mpr hitems)
    rw [← hmap] at hsorted
    exact ⟨fulls, ⟨inputs, hinputs, hfulls⟩, hsorted⟩

end KeySource

end DialectDb
