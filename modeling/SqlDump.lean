import SqlDump.Main
import SqlDump.Proofs.Csv.Export
import SqlDump.Proofs.Csv.Octets
import SqlDump.Proofs.Dump.Document
import SqlDump.Proofs.Dump.Faults
import SqlDump.Proofs.Dump.Quotes
import SqlDump.Proofs.Plan.Least
import SqlDump.Proofs.Postgres.Constraints
import SqlDump.Proofs.Postgres.Gap
import SqlDump.Proofs.Postgres.Hex
import SqlDump.Proofs.Postgres.Insertion
import SqlDump.Proofs.Postgres.Numeral
import SqlDump.Proofs.Postgres.Requoting
import SqlDump.Proofs.Postgres.SequenceReset
import SqlDump.Proofs.Postgres.UniqueNames
import SqlDump.Proofs.Schema.Absorption
import SqlDump.Proofs.Schema.Enumeration
import SqlDump.Proofs.Schema.Index
import SqlDump.Proofs.Schema.Listing
import SqlDump.Proofs.Segment.Comments
import SqlDump.Proofs.Segment.Independence
import SqlDump.Proofs.Segment.Partition
import SqlDump.Proofs.Text.QualifiedNames
import SqlDump.Proofs.Translation.Arrangement
import SqlDump.Proofs.Translation.Blobs
import SqlDump.Proofs.Translation.DryRun
import SqlDump.Proofs.Translation.Families
import SqlDump.Proofs.Translation.Resets
import SqlDump.Proofs.Value.Escapes
import SqlDump.Proofs.Value.Prefixes
import SqlDump.Proofs.Schema.ModifierOrder
