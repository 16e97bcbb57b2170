import AsyncMigration.Files.Tree
import AsyncMigration.Invariant
import AsyncMigration.Main
import AsyncMigration.Proofs.Cycles
import AsyncMigration.Proofs.DecisionRule
import AsyncMigration.Proofs.Rearrangement
import AsyncMigration.Proofs.Staleness
import AsyncMigration.Proofs.Symmetry
import AsyncMigration.Proofs.Totality
import AsyncMigration.Proofs.Capping
import AsyncMigration.Proofs.Isolation
import AsyncMigration.Proofs.Bodies
import AsyncMigration.Proofs.Attention
import AsyncMigration.Proofs.Delivery
import AsyncMigration.Proofs.Accounting
import AsyncMigration.Proofs.Scores
import AsyncMigration.Proofs.Nesting
import AsyncMigration.Proofs.Repetition
import AsyncMigration.Proofs.DepthFirst
import AsyncMigration.Proofs.Gaps
import AsyncMigration.Proofs.Irrelevance
import AsyncMigration.Proofs.JsonReading
import AsyncMigration.Proofs.PayloadText
import AsyncMigration.Proofs.Faults
import AsyncMigration.Proofs.Wrappers
import AsyncMigration.Proofs.Cataloguing
import AsyncMigration.Proofs.Legibility
import AsyncMigration.Proofs.Splicing
import AsyncMigration.Proofs.Flags
import AsyncMigration.Proofs.Rounding
import AsyncMigration.Proofs.NameLists
import AsyncMigration.Proofs.PriorityTables
import AsyncMigration.Proofs.Records
import AsyncMigration.Proofs.JsonWriting
import AsyncMigration.Proofs.Finiteness
import AsyncMigration.Proofs.JsonWords
import AsyncMigration.Proofs.StandardDocuments
import AsyncMigration.Proofs.Registrations
import AsyncMigration.Proofs.Openings
