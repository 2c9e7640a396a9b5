import SnapshotTable.Change
import SnapshotTable.CommandLine
import SnapshotTable.Config
import SnapshotTable.DataFile
import SnapshotTable.Error
import SnapshotTable.Json.Basic
import SnapshotTable.Json.Number
import SnapshotTable.Json.Printer
import SnapshotTable.Json.Quoted
import SnapshotTable.Json.Reader
import SnapshotTable.Json.Record
import SnapshotTable.Keyed
import SnapshotTable.Lineage.Appends
import SnapshotTable.Lineage.Graph
import SnapshotTable.Lineage.Walk
import SnapshotTable.Main
import SnapshotTable.Manifest.Basic
import SnapshotTable.Manifest.Consolidation
import SnapshotTable.Metadata.Basic
import SnapshotTable.Metadata.Document
import SnapshotTable.Partition
import SnapshotTable.Pointer.Log
import SnapshotTable.Pointer.Store
import SnapshotTable.Production
import SnapshotTable.Proofs.Acceptance
import SnapshotTable.Proofs.Accounting
import SnapshotTable.Proofs.AppendPlan
import SnapshotTable.Proofs.Atomicity
import SnapshotTable.Proofs.AttachedStores
import SnapshotTable.Proofs.Attempts
import SnapshotTable.Proofs.Attributions
import SnapshotTable.Proofs.Audits
import SnapshotTable.Proofs.Branches
import SnapshotTable.Proofs.CalendarDates
import SnapshotTable.Proofs.Carrying
import SnapshotTable.Proofs.Clients
import SnapshotTable.Proofs.CommitOutcomes
import SnapshotTable.Proofs.ConsolidatedLists
import SnapshotTable.Proofs.DocumentTexts
import SnapshotTable.Proofs.EqualRuns
import SnapshotTable.Proofs.Erasure
import SnapshotTable.Proofs.ExportedCounts
import SnapshotTable.Proofs.ExportedTables
import SnapshotTable.Proofs.FrozenHistory
import SnapshotTable.Proofs.FullScan
import SnapshotTable.Proofs.Independence
import SnapshotTable.Proofs.InstantTexts
import SnapshotTable.Proofs.Instants
import SnapshotTable.Proofs.Integrity
import SnapshotTable.Proofs.Interleaving
import SnapshotTable.Proofs.KeyedEntries
import SnapshotTable.Proofs.Layouts
import SnapshotTable.Proofs.Ledger
import SnapshotTable.Proofs.LineageErrors
import SnapshotTable.Proofs.Lineages
import SnapshotTable.Proofs.Lines
import SnapshotTable.Proofs.LiveEntries
import SnapshotTable.Proofs.LiveRecords
import SnapshotTable.Proofs.ManifestOrder
import SnapshotTable.Proofs.ManifestShape
import SnapshotTable.Proofs.MetadataDocuments
import SnapshotTable.Proofs.Mirrors
import SnapshotTable.Proofs.Numbering
import SnapshotTable.Proofs.Numerals
import SnapshotTable.Proofs.OneByOne
import SnapshotTable.Proofs.PointerHistory
import SnapshotTable.Proofs.PointerMoves
import SnapshotTable.Proofs.ProducedAuthors
import SnapshotTable.Proofs.ProducedFiles
import SnapshotTable.Proofs.Provenance
import SnapshotTable.Proofs.QuotedStrings
import SnapshotTable.Proofs.RacingAppends
import SnapshotTable.Proofs.RangeSeams
import SnapshotTable.Proofs.Readings
import SnapshotTable.Proofs.Records
import SnapshotTable.Proofs.RemovedFiles
import SnapshotTable.Proofs.Renaming
import SnapshotTable.Proofs.RepeatedTasks
import SnapshotTable.Proofs.ReplayChain
import SnapshotTable.Proofs.ReplayedFiles
import SnapshotTable.Proofs.Reshaping
import SnapshotTable.Proofs.Retries
import SnapshotTable.Proofs.Saturation
import SnapshotTable.Proofs.ScanAgreement
import SnapshotTable.Proofs.SharedManifests
import SnapshotTable.Proofs.Standing
import SnapshotTable.Proofs.StepDocuments
import SnapshotTable.Proofs.StoreCalls
import SnapshotTable.Proofs.StraightLine
import SnapshotTable.Proofs.SwapOutcomes
import SnapshotTable.Proofs.TimedRollback
import SnapshotTable.Proofs.Timestamps
import SnapshotTable.Proofs.Totals
import SnapshotTable.Proofs.TwinGraphs
import SnapshotTable.Proofs.TwinTables
import SnapshotTable.Proofs.Twins
import SnapshotTable.Proofs.UuidTexts
import SnapshotTable.Proofs.WalkSteps
import SnapshotTable.Script.Run
import SnapshotTable.Script.Step
import SnapshotTable.Snapshot.Basic
import SnapshotTable.Table.Basic
import SnapshotTable.Table.Commit
import SnapshotTable.Table.Publish
import SnapshotTable.Table.Rollback
import SnapshotTable.Table.Scan
import SnapshotTable.Table.Transaction
import SnapshotTable.Text.Alphabet
import SnapshotTable.Text.Blank
import SnapshotTable.Text.Bytes
import SnapshotTable.Text.Decimal
import SnapshotTable.Text.Hexadecimal
import SnapshotTable.Time.Calendar
import SnapshotTable.Time.Instant
import SnapshotTable.Time.Text
import SnapshotTable.Trace.Event
import SnapshotTable.Trace.Filter
import SnapshotTable.Trace.Line
import SnapshotTable.Trace.Pattern
import SnapshotTable.Uuid
import SnapshotTable.Validator.Basic
import SnapshotTable.Validator.Quota
