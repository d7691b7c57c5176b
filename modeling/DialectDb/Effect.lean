/-
What a statement other than a query reports when it succeeds.
-/
import DialectDb.Text

namespace DialectDb

/-- The report of a statement that is not a query. -/
inductive Effect
  | createdTable (name : String)
  | droppedTable (name : String) (existed : Bool)
  | deleted (count : Nat)
  | inserted (count : Nat)
  | merged (count : Nat)
  | updated (count : Nat)
deriving DecidableEq

namespace Effect

/-- The number of rows affected; statements about whole tables affect
none. -/
def count : Effect → Nat
  | createdTable _ => 0
  | droppedTable _ _ => 0
  | deleted n | inserted n | merged n | updated n => n

def summary : Effect → String
  | createdTable name => "CreateTable \x7b name: " ++ Text.quoted name ++ " \x7d"
  | droppedTable name existed =>
    "DropTable \x7b name: " ++ Text.quoted name ++ ", existed: " ++ toString existed ++ " \x7d"
  | deleted n => counted "Delete" n
  | inserted n => counted "Insert" n
  | merged n => counted "Merge" n
  | updated n => counted "Update" n
where
  counted (kind : String) (n : Nat) : String :=
    kind ++ " \x7b count: " ++ toString n ++ " \x7d"

end Effect

end DialectDb
