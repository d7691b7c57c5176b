import DialectDb.Main
import DialectDb.Client
import DialectDb.Proofs.Action
import DialectDb.Proofs.Frame
import DialectDb.Proofs.Keys
import DialectDb.Proofs.Storage
import DialectDb.Proofs.Validity
import DialectDb.Proofs.Writing
import DialectDb.Proofs.Merging
import DialectDb.Proofs.Runs
import DialectDb.Proofs.Precedence
import DialectDb.Proofs.Scoping
import DialectDb.Proofs.Enclosing
import DialectDb.Proofs.Shadowing
import DialectDb.Proofs.References
import DialectDb.Proofs.Rows
import DialectDb.Proofs.Where
import DialectDb.Proofs.Unions
import DialectDb.Proofs.Binding
import DialectDb.Proofs.Filling
import DialectDb.Proofs.Mirroring
import DialectDb.Proofs.MirroredExpressions
import DialectDb.Proofs.MirroredQueries
import DialectDb.Proofs.MirroredTables
import DialectDb.Proofs.MirroredStatements
import DialectDb.Proofs.NameSafety
import DialectDb.Proofs.Outline
import DialectDb.Proofs.Foreseen
import DialectDb.Proofs.SafeWriting
import DialectDb.Proofs.Widths
import DialectDb.Proofs.NameFailures
import DialectDb.Proofs.Insertion
import DialectDb.Proofs.Truth
import DialectDb.Proofs.MergeMeaning
import DialectDb.Proofs.JoinedRows
import DialectDb.Proofs.ScopedRows
import DialectDb.Proofs.JoinMeaning
import DialectDb.Proofs.Partition
import DialectDb.Proofs.Constructs
import DialectDb.Proofs.GatedExpressions
import DialectDb.Proofs.GatedQueries
import DialectDb.Proofs.GatedStatements
import DialectDb.Proofs.TotalOrder
import DialectDb.Proofs.GroupedValues
import DialectDb.Proofs.Places
import DialectDb.Proofs.PlacedRows
import DialectDb.Proofs.PlacedStatements
import DialectDb.Proofs.Looks
import DialectDb.Proofs.CheckedRows
import DialectDb.Proofs.CheckedQueries
import DialectDb.Proofs.CheckedActions
import DialectDb.Proofs.CheckedWrites
import DialectDb.Proofs.CheckedStatements
import DialectDb.Proofs.WellFormed
import DialectDb.Proofs.Making
import DialectDb.Proofs.MadeExpressions
import DialectDb.Proofs.MadeQueries
import DialectDb.Proofs.MadeStatements
import DialectDb.Proofs.Lexing
import DialectDb.Proofs.WholeTexts
import DialectDb.Proofs.Closed
import DialectDb.Proofs.GuardedRows
import DialectDb.Proofs.GuardedStatements
import DialectDb.Proofs.NestedLoops
import DialectDb.Proofs.Clauses
import DialectDb.Proofs.RereadQueries
import DialectDb.Proofs.RoundTrip
import DialectDb.Proofs.Displacement
import DialectDb.Proofs.DisplacedGrammar
import DialectDb.Proofs.Scanning
import DialectDb.Proofs.Gaps
import DialectDb.Proofs.WrittenTokens
import DialectDb.Proofs.NamedQueries
import DialectDb.Proofs.ShortestDecimals
import DialectDb.Proofs.ShownNumbers
import DialectDb.Proofs.ShownTokens
import DialectDb.Proofs.ShownTables
import DialectDb.Proofs.RereadTables
import DialectDb.Proofs.CreatedTables
import DialectDb.Proofs.RecreatedTables
import DialectDb.Proofs.Lifecycles
import DialectDb.Proofs.Membership
import DialectDb.Proofs.UpsertNames
import DialectDb.Proofs.AssignedOnce
import DialectDb.Proofs.ExactNumbers
import DialectDb.Proofs.RoundedIntegers
import DialectDb.Proofs.ComparedNumbers
import DialectDb.Proofs.StoredNumbers
import DialectDb.Proofs.KeyLookup
import DialectDb.Proofs.Aggregates
import DialectDb.Proofs.Aggregation
import DialectDb.Proofs.UpdateMeaning
import DialectDb.Proofs.ShuffledRows
import DialectDb.Proofs.SortKeys
import DialectDb.Proofs.SortedRows
import DialectDb.Proofs.Calculations
import DialectDb.Proofs.Patterns
import DialectDb.Proofs.IgnoredConflicts
import DialectDb.Proofs.EqualSpellings
import DialectDb.Proofs.FaultPositions
import DialectDb.Proofs.Transforming
import DialectDb.Proofs.BareKeywords
