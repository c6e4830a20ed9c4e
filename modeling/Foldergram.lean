import Foldergram.Canvas
import Foldergram.Command.Arguments
import Foldergram.Command.Failure
import Foldergram.Command.FileName
import Foldergram.Command.Run
import Foldergram.Command.Workspace
import Foldergram.Config
import Foldergram.Diagram.Dot
import Foldergram.Diagram.Drawing
import Foldergram.Diagram.Export
import Foldergram.Diagram.Mermaid
import Foldergram.Folding
import Foldergram.Glob
import Foldergram.Json.Basic
import Foldergram.Json.Numeral
import Foldergram.Json.Printer
import Foldergram.Json.Reader
import Foldergram.Layout.Box
import Foldergram.Layout.Packing
import Foldergram.Layout.Pass
import Foldergram.Main
import Foldergram.Notice
import Foldergram.Number.Binary64
import Foldergram.Number.Shortest
import Foldergram.Number.SquareRoot
import Foldergram.Palette
import Foldergram.Path
import Foldergram.Projection.Basic
import Foldergram.Projection.Route
import Foldergram.Projection.Visibility
import Foldergram.Proofs.Canvas
import Foldergram.Proofs.Checked
import Foldergram.Proofs.Command.View
import Foldergram.Proofs.Diagram.Coarsening
import Foldergram.Proofs.Diagram.Conservation
import Foldergram.Proofs.Diagram.EdgeCount
import Foldergram.Proofs.Diagram.EdgeEnds
import Foldergram.Proofs.Diagram.EdgeTable
import Foldergram.Proofs.Diagram.Labels
import Foldergram.Proofs.Diagram.Lines
import Foldergram.Proofs.Diagram.Merging
import Foldergram.Proofs.Diagram.Strokes
import Foldergram.Proofs.Diagram.Tracing
import Foldergram.Proofs.Folding
import Foldergram.Proofs.Json.Reading
import Foldergram.Proofs.Json.Scalar
import Foldergram.Proofs.Layout.Agreement
import Foldergram.Proofs.Layout.Arrangement
import Foldergram.Proofs.Layout.History
import Foldergram.Proofs.Layout.Locality
import Foldergram.Proofs.Layout.Nesting
import Foldergram.Proofs.Layout.Packing
import Foldergram.Proofs.Layout.Pass
import Foldergram.Proofs.Layout.Range
import Foldergram.Proofs.Layout.RowLimit
import Foldergram.Proofs.Layout.Rows
import Foldergram.Proofs.Number.Rounding
import Foldergram.Proofs.Path
import Foldergram.Proofs.Path.Prefixes
import Foldergram.Proofs.Projection.Coarsening
import Foldergram.Proofs.Projection.Dependencies
import Foldergram.Proofs.Projection.EdgeIds
import Foldergram.Proofs.Projection.EdgeOrder
import Foldergram.Proofs.Projection.Nodes
import Foldergram.Proofs.Projection.OpenDepth
import Foldergram.Proofs.Projection.Preorder
import Foldergram.Proofs.Projection.Routing
import Foldergram.Proofs.Projection.Visibility
import Foldergram.Proofs.Report.Reading
import Foldergram.Proofs.Session.HiddenFlags
import Foldergram.Proofs.Session.InputOrder
import Foldergram.Proofs.Session.Refinement
import Foldergram.Proofs.Session.Stats
import Foldergram.Proofs.Session.Toggling
import Foldergram.Proofs.Source.Document
import Foldergram.Proofs.Source.EmptiedFolders
import Foldergram.Proofs.Source.Exclusion
import Foldergram.Proofs.Tree.Alike
import Foldergram.Proofs.Tree.Ancestry
import Foldergram.Proofs.Tree.Bare
import Foldergram.Proofs.Tree.Build
import Foldergram.Proofs.Tree.Collision
import Foldergram.Proofs.Tree.Creation
import Foldergram.Proofs.Tree.Display
import Foldergram.Proofs.Tree.Folders
import Foldergram.Proofs.Tree.Lookup
import Foldergram.Proofs.Tree.Paths
import Foldergram.Proofs.Tree.Place
import Foldergram.Proofs.Tree.PrefixTree
import Foldergram.Proofs.Tree.WellPlaced
import Foldergram.Report.Format
import Foldergram.Report.Projection
import Foldergram.Report.Stats
import Foldergram.Session
import Foldergram.Source.Basic
import Foldergram.Source.Document
import Foldergram.Source.Exclusion
import Foldergram.Source.Fault
import Foldergram.Stats
import Foldergram.Text.CaseIgnorable
import Foldergram.Text.Cased
import Foldergram.Text.CodeRange
import Foldergram.Text.Column
import Foldergram.Text.Lowercase
import Foldergram.Text.Quoted
import Foldergram.Text.Reader
import Foldergram.Text.Replace
import Foldergram.Text.Unprinted
import Foldergram.Toml.Document
import Foldergram.Toml.Scalar
import Foldergram.Toml.Value
import Foldergram.Tree.Ancestry
import Foldergram.Tree.Basic
import Foldergram.Tree.Build
import Foldergram.Tree.Display
