/-
Engines, which run the statements of a command, and the registry that
has them by the name of the dialect. Whoever wants another engine for a
dialect registers it first: the first registration of a name stays, and
letter case tells no names apart.
-/
import DialectDb.Dialect.Catalog
import DialectDb.Execution

namespace DialectDb

-- ============================================================= engines

/-- What runs statements: a dialect version, and what a text does to a
store. -/
structure Engine where
  version : DialectVersion
  run : String → Action Store Outcome

/-- Makes an engine for a database of a dialect version and the
parameters of a command. -/
abbrev EngineFactory := DialectVersion → Parameters → Engine

namespace Engine

/-- The engine that reads, binds and executes statements. -/
def builtIn : EngineFactory := fun version parameters =>
  { version, run := Statement.run version parameters }

/-- An engine that answers every text with the same effect. -/
def constant (effect : Effect) : EngineFactory := fun version _ =>
  { version, run := fun _ => return .effect effect }

end Engine

-- ============================================================ registry

/-- Engine factories under dialect names in lower case. -/
structure Registry where
  factories : List (String × EngineFactory) := []

namespace Registry

def find? (r : Registry) (name : String) : Option EngineFactory :=
  r.factories.lookup (Text.lower name)

def isRegistered (r : Registry) (name : String) : Bool :=
  (r.find? name).isSome

/-- Registers a factory, unless the name is registered already. -/
def register (r : Registry) (name : String) (factory : EngineFactory) : Registry :=
  if r.isRegistered name then r
  else { factories := r.factories ++ [(Text.lower name, factory)] }

def resolve (r : Registry) (name : String) (version : DialectVersion)
    (parameters : Parameters) : Result Engine :=
  match r.find? name with
  | some factory => .ok (factory version parameters)
  | none => .error (.unregistered name)

/-- The registered names, in alphabetic order. -/
def dialects (r : Registry) : List String :=
  (r.factories.map Prod.fst).mergeSort

def ofNames (names : List String) : Registry :=
  names.foldl (fun r name => r.register name Engine.builtIn) {}

/-- The registry with the built-in engine for every dialect. -/
def defaults : Registry := ofNames (Dialect.all.map (·.name))

end Registry

end DialectDb
