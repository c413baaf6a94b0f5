import GraphShell.Binary.Arithmetic
import GraphShell.Binary.Format
import GraphShell.Command
import GraphShell.Decimal.Notation
import GraphShell.Decimal.Reading
import GraphShell.Dispatch
import GraphShell.Graph.Basic
import GraphShell.Graph.Decoding
import GraphShell.Graph.Trees
import GraphShell.Json.Decoder
import GraphShell.Json.Lexical
import GraphShell.Json.Number
import GraphShell.KeyMap
import GraphShell.Main
import GraphShell.Program.Arguments
import GraphShell.Program.Run
import GraphShell.Remote.Store
import GraphShell.Remote.Wire
import GraphShell.Scalar.Basic
import GraphShell.Settings.Loading
import GraphShell.Shell.Prompt
import GraphShell.Shell.Session
import GraphShell.Store.Basic
import GraphShell.Store.Memory
import GraphShell.Store.Snapshot
import GraphShell.Text.Lowercase
import GraphShell.Text.Marks
import GraphShell.Text.Numeral
import GraphShell.Text.Splitting
import GraphShell.Timestamp.Basic
import GraphShell.Toml.Document
import GraphShell.Url.Basic
import GraphShell.Url.Escapes
import GraphShell.Url.Host
import GraphShell.Vocabulary
import GraphShell.Proofs.Binary.Logarithm
import GraphShell.Proofs.Binary.Magnitudes
import GraphShell.Proofs.Binary.Nearest
import GraphShell.Proofs.Binary.Order
import GraphShell.Proofs.Command.Cursors
import GraphShell.Proofs.Command.Grammar
import GraphShell.Proofs.Command.Refusals
import GraphShell.Proofs.Command.Steps
import GraphShell.Proofs.Command.Tokens
import GraphShell.Proofs.Decimal.Integers
import GraphShell.Proofs.Decimal.Positions
import GraphShell.Proofs.Decimal.Shortest
import GraphShell.Proofs.Dispatch.Agreement
import GraphShell.Proofs.Dispatch.Effects
import GraphShell.Proofs.Dispatch.Plans
import GraphShell.Proofs.Graph.CostOrder
import GraphShell.Proofs.Graph.Costs
import GraphShell.Proofs.Graph.Descent
import GraphShell.Proofs.Graph.Edges
import GraphShell.Proofs.Graph.Exchange
import GraphShell.Proofs.Graph.FiniteWeights
import GraphShell.Proofs.Graph.Growth
import GraphShell.Proofs.Graph.Membership
import GraphShell.Proofs.Graph.MinimumTree
import GraphShell.Proofs.Graph.Optimality
import GraphShell.Proofs.Graph.PathCosts
import GraphShell.Proofs.Graph.PathTree
import GraphShell.Proofs.Graph.RoundTrip
import GraphShell.Proofs.Graph.Search
import GraphShell.Proofs.Graph.SettlingOrder
import GraphShell.Proofs.Graph.ShownWeights
import GraphShell.Proofs.Graph.SpanningShape
import GraphShell.Proofs.Graph.Ties
import GraphShell.Proofs.Graph.ViewContrast
import GraphShell.Proofs.Json.Literals
import GraphShell.Proofs.Json.Objects
import GraphShell.Proofs.Json.Range
import GraphShell.Proofs.Json.Scaling
import GraphShell.Proofs.Json.Words
import GraphShell.Proofs.Lookup
import GraphShell.Proofs.Remote.Addresses
import GraphShell.Proofs.Scalar.Kinds
import GraphShell.Proofs.Scalar.RoundTrip
import GraphShell.Proofs.Settings.Layers
import GraphShell.Proofs.Shell.Completion
import GraphShell.Proofs.Shell.Illuminations
import GraphShell.Proofs.Shell.Keywords
import GraphShell.Proofs.Shell.Lines
import GraphShell.Proofs.Shell.Sessions
import GraphShell.Proofs.Shell.Streams
import GraphShell.Proofs.Store.Answers
import GraphShell.Proofs.Store.BestEdges
import GraphShell.Proofs.Store.Distances
import GraphShell.Proofs.Store.Expiry
import GraphShell.Proofs.Store.Illumination
import GraphShell.Proofs.Store.LastWrites
import GraphShell.Proofs.Store.Neighbourhood
import GraphShell.Proofs.Store.Regular
import GraphShell.Proofs.Store.Retention
import GraphShell.Proofs.Store.Views
import GraphShell.Proofs.Text.Digits
import GraphShell.Proofs.Text.Lines
import GraphShell.Proofs.Text.Lowercase
import GraphShell.Proofs.Text.Numerals
import GraphShell.Proofs.Text.Words
import GraphShell.Proofs.Timestamp.Readings
import GraphShell.Proofs.Url.Escapes
import GraphShell.Proofs.Url.Segments
