import Collector.Command.Arguments
import Collector.Command.Run
import Collector.Files.Tree
import Collector.Main
import Collector.Proofs.Table.Growth
import Collector.Proofs.Stream.Delivery
import Collector.Proofs.Table.Grammar
import Collector.Proofs.Table.Written
import Collector.Proofs.Query.Operands
import Collector.Proofs.Query.Markers
import Collector.Proofs.Query.Lossless
import Collector.Proofs.Query.Clauses
import Collector.Proofs.Stream.Following
import Collector.Proofs.Stream.Rewriting
import Collector.Proofs.Text.Resuming
import Collector.Proofs.Table.OpenRow
import Collector.Proofs.Stream.Progress
import Collector.Proofs.Files.Placement
import Collector.Proofs.Files.Unreliable
import Collector.Proofs.Params.Targets
import Collector.Proofs.Params.Writing
import Collector.Proofs.Text.Layouts
import Collector.Proofs.Text.Statements
import Collector.Proofs.Params.Documents
import Collector.Proofs.Params.Lossless
import Collector.Proofs.Query.Words
import Collector.Proofs.Query.Placeholders
import Collector.Proofs.Query.Positions
import Collector.Proofs.Query.Extraction
import Collector.Proofs.Params.CommentLine
import Collector.Proofs.Text.Encoded
import Collector.Proofs.Toml.Strings
import Collector.Proofs.Toml.Values
import Collector.Proofs.Toml.Lines
import Collector.Proofs.Toml.Tables
import Collector.Proofs.Config.Saving
import Collector.Proofs.Query.Cuts
import Collector.Proofs.Table.LineEnds
import Collector.Proofs.Text.Compact
import Collector.Proofs.Stream.Listing
import Collector.Proofs.Text.CrossedOut
import Collector.Proofs.Table.Shape
import Collector.Proofs.Text.Stretches
import Collector.Proofs.Query.Interchange
import Collector.Proofs.Query.Spacing
import Collector.Proofs.Compile.Dialects
import Collector.Proofs.Calendar.Spelling
import Collector.Proofs.Config.Baseline
import Collector.Proofs.Files.Below
import Collector.Proofs.Command.Home
import Collector.Proofs.Query.Steps
