import MemoTransfer.Calendar.Date
import MemoTransfer.Calendar.Instant
import MemoTransfer.Calendar.Reader
import MemoTransfer.Cli.Command
import MemoTransfer.Cli.FileTree
import MemoTransfer.Cli.Host
import MemoTransfer.Cli.Report
import MemoTransfer.Cli.Run
import MemoTransfer.Cli.StoreAddress
import MemoTransfer.Cli.StoreFile
import MemoTransfer.Cli.StorePath
import MemoTransfer.Cli.Style
import MemoTransfer.Cli.Usage
import MemoTransfer.Content.Code
import MemoTransfer.Content.Link
import MemoTransfer.Content.Pattern
import MemoTransfer.Content.Tag
import MemoTransfer.Content.Task
import MemoTransfer.Error
import MemoTransfer.Json.Fault
import MemoTransfer.Json.Printer
import MemoTransfer.Json.Reader.Basic
import MemoTransfer.Json.Reader.Kinds
import MemoTransfer.Json.Reader.Numeral
import MemoTransfer.Json.Reader.Record
import MemoTransfer.Json.Reader.Skip
import MemoTransfer.Json.Reader.Text
import MemoTransfer.Json.Reader.Value
import MemoTransfer.Json.Relaxed.Gap
import MemoTransfer.Json.Relaxed.Numeral
import MemoTransfer.Json.Relaxed.Reader
import MemoTransfer.Json.Relaxed.Spelled
import MemoTransfer.Json.Relaxed.Tree
import MemoTransfer.Json.Value
import MemoTransfer.Main
import MemoTransfer.Memo.Basic
import MemoTransfer.Memo.Derived
import MemoTransfer.Memo.Related
import MemoTransfer.Memo.Written
import MemoTransfer.Number.Binary64
import MemoTransfer.Number.Numeral
import MemoTransfer.Number.Shortest
import MemoTransfer.Query.Depth
import MemoTransfer.Query.Like
import MemoTransfer.Query.MemoQuery
import MemoTransfer.Query.Term
import MemoTransfer.Query.Token
import MemoTransfer.Snapshot.Basic
import MemoTransfer.Snapshot.Written
import MemoTransfer.Store.Basic
import MemoTransfer.Store.Change
import MemoTransfer.Store.MemoStore
import MemoTransfer.Store.Select
import MemoTransfer.Store.Written
import MemoTransfer.Text.Base64
import MemoTransfer.Text.Blank
import MemoTransfer.Text.Letter
import MemoTransfer.Text.Quoted
import MemoTransfer.Text.Range
import MemoTransfer.Text.Uppercase
import MemoTransfer.Text.Utf8
import MemoTransfer.Text.Visible
import MemoTransfer.Transfer.Account
import MemoTransfer.Transfer.Envelope
import MemoTransfer.Transfer.Export
import MemoTransfer.Transfer.Import
import MemoTransfer.Transfer.Outcome
import MemoTransfer.Transfer.References
import MemoTransfer.Proofs.Json.Reads
import MemoTransfer.Proofs.Json.Strings
import MemoTransfer.Proofs.Number.Decimal
import MemoTransfer.Proofs.Json.Numbers
import MemoTransfer.Proofs.Json.Lists
import MemoTransfer.Proofs.Json.Records
import MemoTransfer.Proofs.Calendar.Days
import MemoTransfer.Proofs.Calendar.ReadBack
import MemoTransfer.Proofs.Memo.ReadBack
import MemoTransfer.Proofs.Snapshot.RoundTrip
import MemoTransfer.Proofs.Json.Ensures
import MemoTransfer.Proofs.Snapshot.Finite
import MemoTransfer.Proofs.Store.Lookups
import MemoTransfer.Proofs.Transfer.Importing
import MemoTransfer.Proofs.Store.Sound
import MemoTransfer.Proofs.Transfer.Exporting
import MemoTransfer.Proofs.Transfer.Operations
import MemoTransfer.Proofs.Transfer.Reimport
import MemoTransfer.Proofs.Transfer.Merge
import MemoTransfer.Proofs.Transfer.Migration
import MemoTransfer.Proofs.Transfer.Summing
import MemoTransfer.Proofs.Transfer.Totals
import MemoTransfer.Proofs.Transfer.Calls
import MemoTransfer.Proofs.Transfer.Courses
import MemoTransfer.Proofs.Transfer.Accounting
import MemoTransfer.Proofs.Transfer.Verdicts
import MemoTransfer.Proofs.Transfer.Restoring
import MemoTransfer.Proofs.Transfer.DryRun
import MemoTransfer.Proofs.Store.Integrity
import MemoTransfer.Proofs.Transfer.Histories
import MemoTransfer.Proofs.Transfer.Repetition
import MemoTransfer.Proofs.Json.Relaxed
import MemoTransfer.Proofs.Store.Selecting
import MemoTransfer.Proofs.Transfer.Envelopes
import MemoTransfer.Proofs.Transfer.Exactness
import MemoTransfer.Proofs.Json.Grammar
import MemoTransfer.Proofs.Json.Skipping
import MemoTransfer.Proofs.Json.Nesting
import MemoTransfer.Proofs.Json.Crossing
import MemoTransfer.Proofs.Json.Extent
import MemoTransfer.Proofs.Json.Fields
import MemoTransfer.Proofs.Json.Flaws
import MemoTransfer.Proofs.Snapshot.Damage
import MemoTransfer.Proofs.Snapshot.Documents
import MemoTransfer.Proofs.Snapshot.Strictness
import MemoTransfer.Proofs.Transfer.Splitting
import MemoTransfer.Proofs.Transfer.Reordering
import MemoTransfer.Proofs.Transfer.Ownership
import MemoTransfer.Proofs.Transfer.Scripts
import MemoTransfer.Proofs.Transfer.Serving
import MemoTransfer.Proofs.Transfer.Racing
import MemoTransfer.Proofs.Transfer.Upkeep
import MemoTransfer.Proofs.Query.Like
import MemoTransfer.Proofs.Transfer.Querying
import MemoTransfer.Proofs.Transfer.Searching
import MemoTransfer.Proofs.Transfer.Storing
import MemoTransfer.Proofs.Transfer.Omissions
import MemoTransfer.Proofs.Transfer.Warnings
import MemoTransfer.Proofs.Transfer.Authoring
import MemoTransfer.Proofs.Content.Matches
import MemoTransfer.Proofs.Content.Segments
import MemoTransfer.Proofs.Content.Tags
import MemoTransfer.Proofs.Content.Flags
import MemoTransfer.Proofs.Query.Parts
import MemoTransfer.Proofs.Query.Printing
import MemoTransfer.Proofs.Query.Depth
import MemoTransfer.Proofs.Transfer.Finding
import MemoTransfer.Proofs.Transfer.Narrowing
import MemoTransfer.Proofs.Text.Base64
import MemoTransfer.Proofs.Store.Removal
import MemoTransfer.Proofs.Transfer.Deleting
import MemoTransfer.Proofs.Calendar.Order
import MemoTransfer.Proofs.Transfer.Naming
import MemoTransfer.Proofs.Query.Chunks
