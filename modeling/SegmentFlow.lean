import SegmentFlow.Binary64.Basic
import SegmentFlow.Binary64.Decimal
import SegmentFlow.Canvas.Connection
import SegmentFlow.Canvas.Graph
import SegmentFlow.Canvas.Report
import SegmentFlow.Canvas.Wire
import SegmentFlow.CommandLine.Arguments
import SegmentFlow.CommandLine.Run
import SegmentFlow.Compile.Assembly
import SegmentFlow.Compile.Clause
import SegmentFlow.Compile.Settings
import SegmentFlow.Condition.Basic
import SegmentFlow.Condition.Vocabulary
import SegmentFlow.Condition.Wire
import SegmentFlow.Dictionary
import SegmentFlow.Editor
import SegmentFlow.FieldTables
import SegmentFlow.Instant
import SegmentFlow.Json.Basic
import SegmentFlow.Json.Flaw
import SegmentFlow.Json.Normal
import SegmentFlow.Json.Printer
import SegmentFlow.Json.Reader
import SegmentFlow.Json.Reading
import SegmentFlow.Json.Writing
import SegmentFlow.Main
import SegmentFlow.Proofs.Binary64.Exact
import SegmentFlow.Proofs.Binary64.Order
import SegmentFlow.Proofs.Canvas.Admission
import SegmentFlow.Proofs.Canvas.Advance
import SegmentFlow.Proofs.Canvas.Direction
import SegmentFlow.Proofs.Canvas.Issues
import SegmentFlow.Proofs.Canvas.Loaded
import SegmentFlow.Proofs.Canvas.MissingValue
import SegmentFlow.Proofs.Canvas.MoreEdges
import SegmentFlow.Proofs.Canvas.Reachability
import SegmentFlow.Proofs.Canvas.ReadBack
import SegmentFlow.Proofs.Canvas.SaveGate
import SegmentFlow.Proofs.Canvas.Surroundings
import SegmentFlow.Proofs.Compile.Anniversary
import SegmentFlow.Proofs.Compile.ClosedForm
import SegmentFlow.Proofs.Compile.FlatMerge
import SegmentFlow.Proofs.Compile.MerchantLimit
import SegmentFlow.Proofs.Compile.Metadata
import SegmentFlow.Proofs.Compile.RecordBounds
import SegmentFlow.Proofs.Compile.Reloaded
import SegmentFlow.Proofs.Compile.Retention
import SegmentFlow.Proofs.Compile.Skipped
import SegmentFlow.Proofs.Compile.Trace
import SegmentFlow.Proofs.Compile.Unambiguous
import SegmentFlow.Proofs.Condition.Canonical
import SegmentFlow.Proofs.Condition.Clauses
import SegmentFlow.Proofs.Condition.Summary
import SegmentFlow.Proofs.Dictionary
import SegmentFlow.Proofs.Editor.Acyclic
import SegmentFlow.Proofs.Editor.Changes
import SegmentFlow.Proofs.Editor.Drawing
import SegmentFlow.Proofs.Editor.EdgeIdSearch
import SegmentFlow.Proofs.Editor.EdgeIds
import SegmentFlow.Proofs.Editor.Queries
import SegmentFlow.Proofs.Editor.Selection
import SegmentFlow.Proofs.Editor.StartNodes
import SegmentFlow.Proofs.Editor.Steps
import SegmentFlow.Proofs.Editor.WellFormed
import SegmentFlow.Proofs.FieldTables
import SegmentFlow.Proofs.Instant
import SegmentFlow.Proofs.Json.Invariants
import SegmentFlow.Proofs.Json.Members
import SegmentFlow.Proofs.Json.ReadBack
import SegmentFlow.Proofs.Json.Records
import SegmentFlow.Proofs.Json.Scanned
import SegmentFlow.Proofs.Json.Stored
import SegmentFlow.Proofs.Keyed
import SegmentFlow.Proofs.Numeral
import SegmentFlow.Proofs.Query.Joins
import SegmentFlow.Proofs.Query.Legible
import SegmentFlow.Proofs.Query.MergedMembers
import SegmentFlow.Proofs.Query.Merging
import SegmentFlow.Proofs.Workflow.Layouts
import SegmentFlow.Proofs.Workflow.Loaded
import SegmentFlow.Proofs.Workflow.Migration
import SegmentFlow.Proofs.Workflow.Reading
import SegmentFlow.Proofs.Workflow.Reload
import SegmentFlow.Proofs.Workflow.Renames
import SegmentFlow.Proofs.Workflow.Rewriting
import SegmentFlow.Proofs.Workflow.Saved
import SegmentFlow.Query.Clause
import SegmentFlow.Query.Document
import SegmentFlow.Text.Uppercase
import SegmentFlow.Text.Whitespace
import SegmentFlow.Trace
import SegmentFlow.Workflow.Basic
import SegmentFlow.Workflow.Compiled
import SegmentFlow.Workflow.Migration
