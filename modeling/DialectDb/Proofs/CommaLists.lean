/-
Lists of items with commas between them. An item is taken before
whatever may follow one (`TakesBefore`), and a comma is among that; then
all items are taken, up to something else that may follow.
-/
import DialectDb.Proofs.Reading
import DialectDb.Proofs.Rendering

namespace DialectDb.Parser

variable {α : Type} {around : Surroundings} {item : Parser α} {follows : List Token → Prop}

/-- An item is read from its tokens before what may follow it. -/
def TakesBefore (around : Surroundings) (item : Parser α) (follows : List Token → Prop)
    (i : α × List Token) : Prop :=
  ∀ rest, follows rest → Takes around item (i.2 ++ rest) i.1 rest

/-- The tokens of further items: each of them behind a comma. -/
def furtherItems (items : List (α × List Token)) : List Token :=
  (items.map Prod.snd).flatMap fun tokens => .sign .comma :: tokens

theorem furtherItems_cons (i : α × List Token) (items : List (α × List Token))
    (rest : List Token) :
    furtherItems (i :: items) ++ rest
      = .sign .comma :: (i.2 ++ (furtherItems items ++ rest)) := by
  simp only [furtherItems, List.map_cons, List.flatMap_cons, List.cons_append, List.append_assoc]

/-- The tokens of a list are those of its first item, and then those of
further items. -/
theorem commaSeparated_cons (i : α × List Token) (items : List (α × List Token))
    (rest : List Token) :
    commaSeparated ((i :: items).map Prod.snd) ++ rest = i.2 ++ (furtherItems items ++ rest) :=
  List.append_assoc _ _ _

/-- After an item comes a comma or what stands behind all items. -/
theorem follows_furtherItems (hcomma : ∀ tokens, follows (.sign .comma :: tokens))
    {items : List (α × List Token)} {rest : List Token} (hrest : follows rest) :
    follows (furtherItems items ++ rest) := by
  cases items with
  | nil => exact hrest
  | cons i items => exact hcomma _

/-- An item is read from its tokens and put behind those before it. -/
def AppendsBefore (around : Surroundings) (item : List α → Parser (List α))
    (follows : List Token → Prop) (i : α × List Token) : Prop :=
  ∀ read rest, follows rest → Takes around (item read) (i.2 ++ rest) (read ++ [i.1]) rest

section

variable {item : List α → Parser (List α)}

/-- Further items of a list are read. -/
private theorem repeats_furtherItems (hcomma : ∀ tokens, follows (.sign .comma :: tokens))
    {items : List (α × List Token)} {rest : List Token}
    (hitems : ∀ i ∈ items, AppendsBefore around item follows i) (hrest : follows rest)
    (hend : rest.head? ≠ some (.sign .comma)) (read : List α) :
    Repeats around
      (fun items => do if ← accept Sign.comma then some <$> item items else pure none)
      read (furtherItems items ++ rest) (read ++ items.map Prod.fst) rest := by
  induction items generalizing read with
  | nil =>
      rw [List.map_nil, List.append_nil]
      exact .stop (takes_bind (takes_accept_false hend) takes_pure)
  | cons i items ih =>
      obtain ⟨hitem, hitems⟩ := List.forall_mem_cons.mp hitems
      rw [furtherItems_cons, List.map_cons, List.append_cons read]
      refine .step (takes_bind takes_accept (takes_map
        (hitem _ _ (follows_furtherItems hcomma hrest)))) ?_ (ih hitems _)
      simp only [List.length_cons, List.length_append]
      omega

/-- A list is read by a reader that puts each item behind those before
it. -/
theorem takes_commaFold (hcomma : ∀ tokens, follows (.sign .comma :: tokens))
    {items : List (α × List Token)} {rest : List Token}
    (hitems : ∀ i ∈ items, AppendsBefore around item follows i) (hne : items ≠ [])
    (hrest : follows rest) (hend : rest.head? ≠ some (.sign .comma)) :
    Takes around (commaFold item []) (commaSeparated (items.map Prod.snd) ++ rest)
      (items.map Prod.fst) rest := by
  cases items with
  | nil => exact absurd rfl hne
  | cons i items =>
      obtain ⟨hitem, hitems⟩ := List.forall_mem_cons.mp hitems
      rw [commaSeparated_cons]
      refine takes_bind (hitem _ _ (follows_furtherItems hcomma hrest)) ?_
      exact (repeats_furtherItems hcomma hitems hrest hend [i.1]).takes

end

/-- A list of items is read, which has one at least. -/
theorem takes_commaList (hcomma : ∀ tokens, follows (.sign .comma :: tokens))
    {items : List (α × List Token)} {rest : List Token}
    (hitems : ∀ i ∈ items, TakesBefore around item follows i) (hne : items ≠ [])
    (hrest : follows rest) (hend : rest.head? ≠ some (.sign .comma)) :
    Takes around (commaList item) (commaSeparated (items.map Prod.snd) ++ rest)
      (items.map Prod.fst) rest :=
  takes_commaFold hcomma (fun i hi _ rest hrest => takes_bind (hitems i hi rest hrest) takes_pure)
    hne hrest hend

/-- A list of items that are written in one way is read. -/
theorem takes_commaList_map (hcomma : ∀ tokens, follows (.sign .comma :: tokens))
    {written : α → List Token} {items : List α} {rest : List Token}
    (hitems : ∀ a ∈ items, TakesBefore around item follows (a, written a)) (hne : items ≠ [])
    (hrest : follows rest) (hend : rest.head? ≠ some (.sign .comma)) :
    Takes around (commaList item) (commaSeparated (items.map written) ++ rest) items rest := by
  have hpairs : ∀ i ∈ items.map fun a => (a, written a), TakesBefore around item follows i := by
    intro i hi
    obtain ⟨a, ha, rfl⟩ := List.mem_map.mp hi
    exact hitems a ha
  have hlist := takes_commaList hcomma hpairs (by simpa using hne) hrest hend
  simpa only [List.map_map, Function.comp_def, List.map_id'] using hlist

end DialectDb.Parser
