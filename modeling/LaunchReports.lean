import LaunchReports.Json.Reading
import LaunchReports.Schema.Declaration
import LaunchReports.Catalog.Document
import LaunchReports.Report.Envelope
import LaunchReports.Report.RequestSchema
import LaunchReports.Record.Lines
import LaunchReports.Time.Timestamp
import LaunchReports.Path.Locations
import LaunchReports.Store.Archive
import LaunchReports.Command.Run
import LaunchReports.Files.Machine
import LaunchReports.Main
import LaunchReports.Proofs.Catalog.References
import LaunchReports.Proofs.Report.Compilation
import LaunchReports.Proofs.Schema.Names
import LaunchReports.Proofs.Sql.Literal
import LaunchReports.Proofs.Sql.Dereference
import LaunchReports.Proofs.Report.VariableLifetime
import LaunchReports.Proofs.Store.Isolation
import LaunchReports.Proofs.Store.Interning
import LaunchReports.Proofs.Store.Reading
import LaunchReports.Proofs.Store.Launch
import LaunchReports.Proofs.Store.Integrity
import LaunchReports.Proofs.Store.Joining
import LaunchReports.Proofs.Store.Answering
import LaunchReports.Proofs.Report.Matching
import LaunchReports.Proofs.Report.Totals
import LaunchReports.Proofs.Report.Partition
import LaunchReports.Proofs.Report.Acceptance
import LaunchReports.Proofs.Report.Operands
import LaunchReports.Proofs.Sql.Placeholders
import LaunchReports.Proofs.Report.Joins
import LaunchReports.Proofs.Report.Parameters
import LaunchReports.Proofs.Report.Protocol
import LaunchReports.Proofs.Report.Warnings
import LaunchReports.Proofs.Store.Recording
import LaunchReports.Proofs.Store.History
import LaunchReports.Proofs.Json.Spelling
import LaunchReports.Proofs.Json.Drafts
import LaunchReports.Proofs.Json.Records
import LaunchReports.Proofs.Report.RequestForms
import LaunchReports.Proofs.Record.Session
import LaunchReports.Proofs.Record.Lines
import LaunchReports.Proofs.Command.Accesses
import LaunchReports.Proofs.Command.Import
import LaunchReports.Proofs.Command.Report
import LaunchReports.Proofs.Time.Timestamps
import LaunchReports.Proofs.Report.Failures
import LaunchReports.Proofs.Report.Labels
import LaunchReports.Proofs.Json.Values
import LaunchReports.Proofs.Report.EnvelopeText
import LaunchReports.Proofs.Report.Envelopes
import LaunchReports.Proofs.Number.Numerals
import LaunchReports.Proofs.Time.Chronology
import LaunchReports.Proofs.Time.Readings
import LaunchReports.Proofs.Time.Sorting
import LaunchReports.Proofs.Time.Milliseconds
import LaunchReports.Proofs.Command.Overrun
import LaunchReports.Proofs.Number.Literals
import LaunchReports.Proofs.Number.Rounding
import LaunchReports.Proofs.Number.Nearest
import LaunchReports.Proofs.Sql.NumericFilters
import LaunchReports.Proofs.Report.Ordering
import LaunchReports.Proofs.Report.Spellings
import LaunchReports.Proofs.Record.PhysicalLines
import LaunchReports.Proofs.Command.Flags
import LaunchReports.Proofs.Path.Cleaning
import LaunchReports.Proofs.Path.Locations
import LaunchReports.Proofs.Path.Texts
import LaunchReports.Proofs.Report.Histories
import LaunchReports.Proofs.Report.Rows
import LaunchReports.Proofs.Command.Explanation
