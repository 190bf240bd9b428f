import SourceCanvas.Catalog
import SourceCanvas.Decimal.Notation
import SourceCanvas.Decimal.Parts
import SourceCanvas.Decimal.Scientific
import SourceCanvas.Decimal.Shortest
import SourceCanvas.Diagnostic
import SourceCanvas.Digest
import SourceCanvas.Error
import SourceCanvas.Expr.Basic
import SourceCanvas.Expr.Parser
import SourceCanvas.Graph.Basic
import SourceCanvas.Graph.Connect
import SourceCanvas.Graph.Convert
import SourceCanvas.Graph.Handle
import SourceCanvas.Graph.Reference
import SourceCanvas.Graph.Rekey
import SourceCanvas.Graph.Script
import SourceCanvas.Graph.Transcript
import SourceCanvas.Json.Basic
import SourceCanvas.Json.Display
import SourceCanvas.Json.Parser
import SourceCanvas.Json.Printer
import SourceCanvas.Layout.Layered
import SourceCanvas.Layout.Rank
import SourceCanvas.Layout.Tree
import SourceCanvas.Node.Attributes
import SourceCanvas.Node.Basic
import SourceCanvas.Node.Kind
import SourceCanvas.Node.Naming
import SourceCanvas.Node.Payload
import SourceCanvas.Node.Starter
import SourceCanvas.Number
import SourceCanvas.Outline.Basic
import SourceCanvas.Outline.Parser
import SourceCanvas.Outline.Template
import SourceCanvas.Program.Block
import SourceCanvas.Program.Render
import SourceCanvas.Proofs.ActInvariants
import SourceCanvas.Proofs.BodyLaws
import SourceCanvas.Proofs.CursorLayout
import SourceCanvas.Proofs.CursorProgress
import SourceCanvas.Proofs.DescentLaws
import SourceCanvas.Proofs.ExprLayout
import SourceCanvas.Proofs.ExprProgress
import SourceCanvas.Proofs.GraphIntegrity
import SourceCanvas.Proofs.GraphLaws
import SourceCanvas.Proofs.Ids
import SourceCanvas.Proofs.LedgerLaws
import SourceCanvas.Proofs.Listening
import SourceCanvas.Proofs.Mirroring
import SourceCanvas.Proofs.MovingLaws
import SourceCanvas.Proofs.OutlineForest
import SourceCanvas.Proofs.OutlineLayout
import SourceCanvas.Proofs.Lossless
import SourceCanvas.Proofs.ParentLaws
import SourceCanvas.Proofs.ParseProgress
import SourceCanvas.Proofs.ReadingBack
import SourceCanvas.Proofs.Reconciling
import SourceCanvas.Proofs.RekeyLaws
import SourceCanvas.Proofs.Rewriting
import SourceCanvas.Proofs.SavingLaws
import SourceCanvas.Proofs.ScanLaws
import SourceCanvas.Proofs.SessionLaws
import SourceCanvas.Proofs.SessionSteps
import SourceCanvas.Proofs.StoreAgreement
import SourceCanvas.Proofs.StoreLaws
import SourceCanvas.Proofs.TokenLayout
import SourceCanvas.Session.Basic
import SourceCanvas.Session.Change
import SourceCanvas.Session.Command
import SourceCanvas.Session.Saving
import SourceCanvas.Settings
import SourceCanvas.Store.Basic
import SourceCanvas.Store.Memory
import SourceCanvas.Store.Record
import SourceCanvas.Store.Remote
import SourceCanvas.Store.Table
import SourceCanvas.Supply
import SourceCanvas.Text.CharClass
import SourceCanvas.Text.CharTable
import SourceCanvas.Text.Display
import SourceCanvas.Text.Lines
import SourceCanvas.Text.Numeral
import SourceCanvas.Text.Quoted
import SourceCanvas.Text.Replace
import SourceCanvas.Token.Basic
import SourceCanvas.Token.Cursor
import SourceCanvas.Token.Descent
import SourceCanvas.Token.Extent
import SourceCanvas.Token.Lexer
import SourceCanvas.Proofs.Renaming
import SourceCanvas.Proofs.Chunks
import SourceCanvas.Proofs.Spelling
import SourceCanvas.Proofs.BodyText
import SourceCanvas.Proofs.Captures
import SourceCanvas.Proofs.FunctionBodies
import SourceCanvas.Proofs.Brackets
import SourceCanvas.Proofs.Words
import SourceCanvas.Proofs.Operations
import SourceCanvas.Proofs.Outlines
import SourceCanvas.Proofs.Precedence
import SourceCanvas.Proofs.Substitutions
import SourceCanvas.Proofs.JsonText
import SourceCanvas.Proofs.RequestTemplate
import SourceCanvas.Proofs.Tidying
import SourceCanvas.Proofs.RequestMargins
import SourceCanvas.Proofs.Passages
import SourceCanvas.Proofs.Requests
import SourceCanvas.Proofs.Rejoining
import SourceCanvas.Proofs.BlockRanges
import SourceCanvas.Proofs.Connecting
import SourceCanvas.Proofs.FailedEdits
import SourceCanvas.Proofs.AttributeEdits
import SourceCanvas.Proofs.Declarations
import SourceCanvas.Proofs.Loading
import SourceCanvas.Proofs.RemoteReplies
import SourceCanvas.Proofs.Chains
import SourceCanvas.Proofs.Ranking
import SourceCanvas.Proofs.Forests
import SourceCanvas.Proofs.BoxSizes
import SourceCanvas.Proofs.Places
import SourceCanvas.Proofs.Arrangement
import SourceCanvas.Proofs.TextPlaces
import SourceCanvas.Proofs.Reports
import SourceCanvas.Proofs.QuotedTexts
import SourceCanvas.Proofs.Reindenting
import SourceCanvas.Proofs.Grouping
import SourceCanvas.Proofs.DiagnosedNodes
import SourceCanvas.Proofs.Embedding
import SourceCanvas.Proofs.ConsoleTemplate
import SourceCanvas.Proofs.Strokes
import SourceCanvas.Proofs.WrittenTypes
import SourceCanvas.Proofs.Atoms
import SourceCanvas.Proofs.SynthesizedNames
import SourceCanvas.Proofs.Terms
import SourceCanvas.Proofs.Statements
import SourceCanvas.Proofs.Interfaces
import SourceCanvas.Proofs.Imports
import SourceCanvas.Proofs.Functions
import SourceCanvas.Proofs.CanonicalNodes
import SourceCanvas.Proofs.Recovery
