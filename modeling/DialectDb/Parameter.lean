/-
Command parameters. A placeholder of a statement takes its value from
the first input parameter that matches its name, or from the input
parameter at its ordinal. Parameters that only carry results are passed
over, and do not count.
-/
import DialectDb.Value

namespace DialectDb

-- ======================================================== placeholders

/-- What stands in a statement for a parameter's value. -/
inductive Placeholder
  | named (name : String)
  /-- A question mark, numbered from 0 in the order of the text. -/
  | positional (ordinal : Nat)
deriving DecidableEq

def Placeholder.text : Placeholder → String
  | named name => "@" ++ name
  | positional ordinal => "?" ++ toString ordinal

-- ========================================================== parameters

inductive Direction
  | input
  | output
  | inputOutput
  | returnValue
deriving DecidableEq

/-- A parameter of a command; without a name it is positional. -/
structure Parameter where
  name : Option String
  value : Value
  direction : Direction := .input
deriving DecidableEq

namespace Parameter

def isInput (p : Parameter) : Bool :=
  p.direction = .input || p.direction = .inputOutput

/-- A parameter's name without the signs that may be written before
it. -/
def bareName (name : String) : String :=
  .ofList (name.toList.dropWhile fun c => c = '@' || c = ':' || c = '?')

/-- Whether the parameter has a given name, up to the signs before it
and to letter case. -/
def isNamed (p : Parameter) (name : String) : Bool :=
  match p.name with
  | some own => Text.sameName (bareName own) (bareName name)
  | none => false

end Parameter

/-- The parameters of a command, in the order they were added. -/
abbrev Parameters := List Parameter

namespace Parameters

/-- The first parameter with a given name, of any direction. -/
def get? (ps : Parameters) (name : String) : Option Parameter :=
  ps.find? (·.isNamed name)

/-- The value for a placeholder. -/
def lookup? (ps : Parameters) (placeholder : Placeholder) : Option Value :=
  let inputs := ps.filter Parameter.isInput
  let parameter? :=
    match placeholder with
    | .named name => inputs.find? fun p => Parameter.isNamed p name
    | .positional ordinal => inputs[ordinal]?
  parameter?.map Parameter.value

variable {ps : Parameters} {value : Value}

/-- A name means the first input parameter of that name. -/
theorem lookup?_named_eq_some {name : String} : ps.lookup? (.named name) = some value ↔
    ∃ before p after, ps = before ++ p :: after ∧ p.isInput ∧ p.isNamed name ∧ p.value = value ∧
      ∀ q ∈ before, q.isInput → q.isNamed name = false := by
  unfold lookup?
  dsimp only
  rw [List.find?_filter, Option.map_eq_some_iff]
  simp only [List.find?_eq_some_iff_append, Bool.not_eq_true', decide_eq_true_eq,
    decide_eq_false_iff_not, not_and, Bool.not_eq_true]
  constructor
  · rintro ⟨p, ⟨⟨hinput, hnamed⟩, before, after, rfl, hbefore⟩, rfl⟩
    exact ⟨before, p, after, rfl, hinput, hnamed, rfl, hbefore⟩
  · rintro ⟨before, p, after, rfl, hinput, hnamed, rfl, hbefore⟩
    exact ⟨p, ⟨⟨hinput, hnamed⟩, before, after, rfl, hbefore⟩, rfl⟩

/-- A number means the input parameter that as many input parameters
stand before. -/
theorem lookup?_positional_eq_some {ordinal : Nat} :
    ps.lookup? (.positional ordinal) = some value ↔
      ∃ before p after, ps = before ++ p :: after ∧ p.isInput ∧ p.value = value ∧
        before.countP Parameter.isInput = ordinal := by
  unfold lookup?
  dsimp only
  rw [Option.map_eq_some_iff]
  constructor
  · rintro ⟨p, hp, rfl⟩
    obtain ⟨hlt, hp⟩ := List.getElem?_eq_some_iff.mp hp
    have hsplit := List.take_append_drop ordinal (ps.filter Parameter.isInput)
    rw [List.drop_eq_getElem_cons hlt, hp] at hsplit
    obtain ⟨first, rest, hps, hfirst, hrest⟩ := List.filter_eq_append_iff.mp hsplit.symm
    obtain ⟨skipped, after, rfl, hskipped, hinput, -⟩ := List.filter_eq_cons_iff.mp hrest
    refine ⟨first ++ skipped, p, after, hps.trans (List.append_assoc ..).symm, hinput, rfl, ?_⟩
    rw [List.countP_append, List.countP_eq_zero.mpr hskipped, List.countP_eq_length_filter, hfirst,
      List.length_take, Nat.min_eq_left (Nat.le_of_lt hlt), Nat.add_zero]
  · rintro ⟨before, p, after, rfl, hinput, rfl, rfl⟩
    refine ⟨p, ?_, rfl⟩
    rw [List.countP_eq_length_filter, List.filter_append, List.filter_cons_of_pos hinput,
      List.getElem?_append_right (Nat.le_refl _), Nat.sub_self, List.getElem?_cons_zero]

end Parameters

end DialectDb
