import CopyrightNotice.Comment.Catalog
import CopyrightNotice.Main
import CopyrightNotice.Diff.Preview
import CopyrightNotice.Config.Basic
import CopyrightNotice.Notice.File
import CopyrightNotice.Selection.OptOut
import CopyrightNotice.Workspace
import CopyrightNotice.Toml.Document
import CopyrightNotice.Console.Voice
import CopyrightNotice.Report.Json
import CopyrightNotice.Path.Order
import CopyrightNotice.Path.Difference
import CopyrightNotice.Tree.Access
import CopyrightNotice.Header.Correction
import CopyrightNotice.Text.Utf8
import CopyrightNotice.Proofs.Header.Settled
import CopyrightNotice.Proofs.Text.Lines
import CopyrightNotice.Proofs.Header.Partition
import CopyrightNotice.Proofs.Header.Emission
import CopyrightNotice.Proofs.Header.Agreement
import CopyrightNotice.Proofs.Header.Acceptance
import CopyrightNotice.Proofs.Notice.Rendering
import CopyrightNotice.Proofs.Header.Block
import CopyrightNotice.Proofs.Header.Opening
import CopyrightNotice.Proofs.Comment.Regular
import CopyrightNotice.Proofs.Header.Content
import CopyrightNotice.Proofs.Header.RoundTrip
import CopyrightNotice.Proofs.Header.Update
import CopyrightNotice.Proofs.Header.Detection
import CopyrightNotice.Proofs.Header.Frame
import CopyrightNotice.Proofs.Header.Extent
import CopyrightNotice.Proofs.Header.Replacement
import CopyrightNotice.Proofs.Header.Remnant
import CopyrightNotice.Proofs.Comment.Closed
import CopyrightNotice.Proofs.Header.Closed
import CopyrightNotice.Proofs.Header.Exclusion
import CopyrightNotice.Proofs.Header.Truncation
import CopyrightNotice.Proofs.Header.Unmarked
import CopyrightNotice.Proofs.Header.Convergence
import CopyrightNotice.Proofs.Tree.Shape
import CopyrightNotice.Proofs.Tree.Arrival
import CopyrightNotice.Proofs.Run.Asking
import CopyrightNotice.Proofs.Run.Step
import CopyrightNotice.Proofs.Run.Agreement
import CopyrightNotice.Proofs.Run.Frame
import CopyrightNotice.Proofs.Path.Steps
import CopyrightNotice.Proofs.Tree.Route
import CopyrightNotice.Proofs.Run.Place
import CopyrightNotice.Proofs.Path.Enclosing
import CopyrightNotice.Proofs.Tree.Growth
import CopyrightNotice.Proofs.Tree.Plain
import CopyrightNotice.Proofs.Tree.Spelling
import CopyrightNotice.Proofs.Selection.Recall
import CopyrightNotice.Proofs.Selection.Shelter
import CopyrightNotice.Proofs.Run.Hidden
import CopyrightNotice.Proofs.Header.Stale
import CopyrightNotice.Proofs.Diff.Readings
import CopyrightNotice.Proofs.Diff.Changes
import CopyrightNotice.Proofs.Repository.Listing
import CopyrightNotice.Proofs.Run.Saying
import CopyrightNotice.Proofs.Command.Stages
import CopyrightNotice.Proofs.Command.Summary
import CopyrightNotice.Proofs.Command.Quiet
import CopyrightNotice.Proofs.Header.Difference
import CopyrightNotice.Proofs.Header.LineEnds
import CopyrightNotice.Proofs.Config.Formats
import CopyrightNotice.Proofs.Path.Assembly
import CopyrightNotice.Proofs.Path.Confinement
import CopyrightNotice.Proofs.Repository.Tracked
import CopyrightNotice.Proofs.Run.Preview
import CopyrightNotice.Proofs.Text.Utf8
import CopyrightNotice.Proofs.Json.Numeral
import CopyrightNotice.Proofs.Json.RoundTrip
import CopyrightNotice.Proofs.Report.RoundTrip
