import EntityQuery.Lowering.Node
import EntityQuery.Main
import EntityQuery.Proofs.AliasNumbering
import EntityQuery.Proofs.ArithmeticTypes
import EntityQuery.Proofs.Composite
import EntityQuery.Proofs.FromIndex
import EntityQuery.Proofs.Lineage
import EntityQuery.Proofs.ExposedAttributes
import EntityQuery.Proofs.CollectionRegistry
import EntityQuery.Proofs.Rebuilding
import EntityQuery.Proofs.Redeclaration
import EntityQuery.Proofs.EmbeddedElements
import EntityQuery.Proofs.EmbeddedPaths
import EntityQuery.Proofs.Translation
import EntityQuery.Proofs.Parameters
import EntityQuery.Proofs.JoinConditions
import EntityQuery.Proofs.Renaming
import EntityQuery.Proofs.Integrity
import EntityQuery.Proofs.KnownEntities
import EntityQuery.Proofs.CollectionTables
import EntityQuery.Proofs.TableIdentity
import EntityQuery.Proofs.SingleTable
import EntityQuery.Proofs.InternalFaults
import EntityQuery.Proofs.DuplicateAliases
import EntityQuery.Proofs.CollectionLowering
import EntityQuery.Proofs.PathStarts
import EntityQuery.Proofs.PathGrammar
import EntityQuery.Proofs.AnyMappings
import EntityQuery.Proofs.Variables
import EntityQuery.Proofs.AliasStems
import EntityQuery.Proofs.Widening
import EntityQuery.Proofs.Documents
import EntityQuery.Proofs.StatementDocuments
import EntityQuery.Proofs.SqlDocuments
import EntityQuery.Proofs.RoundTrip
import EntityQuery.Proofs.ArithmeticChains
import EntityQuery.Proofs.DatabaseChanges
import EntityQuery.Proofs.DatabaseRuns
import EntityQuery.Proofs.RejectedMappings
