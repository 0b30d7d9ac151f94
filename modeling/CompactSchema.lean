import CompactSchema.Calendar
import CompactSchema.CommandLine.Arguments
import CompactSchema.CommandLine.Report
import CompactSchema.Comment
import CompactSchema.Definition.Basic
import CompactSchema.Definition.Equality
import CompactSchema.Definition.Literal
import CompactSchema.Definition.Parser
import CompactSchema.Definition.Printer
import CompactSchema.Definition.Serialized
import CompactSchema.Diagnostic
import CompactSchema.Digest
import CompactSchema.Files.Access
import CompactSchema.Files.Change
import CompactSchema.Files.Fault
import CompactSchema.Files.Tree
import CompactSchema.Json.Fault
import CompactSchema.Json.Numeral
import CompactSchema.Json.Outline
import CompactSchema.Json.Reader
import CompactSchema.Json.Value
import CompactSchema.Json.Writer
import CompactSchema.Main
import CompactSchema.Number.Binary64
import CompactSchema.Number.Decimal
import CompactSchema.Pattern.Bracket
import CompactSchema.Pattern.ByteTree
import CompactSchema.Pattern.CharSet
import CompactSchema.Pattern.Escape
import CompactSchema.Pattern.Look
import CompactSchema.Pattern.Machine
import CompactSchema.Pattern.Node
import CompactSchema.Pattern.Reader
import CompactSchema.Pattern.Route
import CompactSchema.Store
import CompactSchema.SyntaxError
import CompactSchema.Text.Cursor
import CompactSchema.Text.Cursor.Lemmas
import CompactSchema.Text.Quoted
import CompactSchema.Text.Walk
import CompactSchema.Unicode.Fold
import CompactSchema.Unicode.Letter
import CompactSchema.Unicode.Ranges
import CompactSchema.Unicode.Unprinted
import CompactSchema.Unicode.Width
import CompactSchema.Unicode.Word
import CompactSchema.Validation.Leaf
import CompactSchema.Validation.Outcome
import CompactSchema.Validation.Text
import CompactSchema.Validation.Validator
import CompactSchema.Validation.Walk
import CompactSchema.Proofs.Grammar
import CompactSchema.Proofs.Moves
import CompactSchema.Proofs.Tokens
import CompactSchema.Proofs.Leaves
import CompactSchema.Proofs.Parsing
import CompactSchema.Proofs.Bare
import CompactSchema.Proofs.WellFormed
import CompactSchema.Proofs.Printing
import CompactSchema.Proofs.Rounding
import CompactSchema.Proofs.Rejection
import CompactSchema.Proofs.Segments
import CompactSchema.Proofs.Literals
import CompactSchema.Proofs.Readers
import CompactSchema.Proofs.Lookahead
import CompactSchema.Proofs.Completion
import CompactSchema.Proofs.Documents
import CompactSchema.Proofs.Serialization
import CompactSchema.Proofs.Caching
import CompactSchema.Proofs.Paths
import CompactSchema.Proofs.Changes
import CompactSchema.Proofs.Resolving
import CompactSchema.Proofs.Equality
import CompactSchema.Proofs.Acceptance
import CompactSchema.Proofs.Relaxation
import CompactSchema.Proofs.RoundTrip
import CompactSchema.Proofs.Alike
import CompactSchema.Proofs.Insertion
import CompactSchema.Proofs.Positions
import CompactSchema.Proofs.Growth
import CompactSchema.Proofs.Storable
import CompactSchema.Proofs.Serving
import CompactSchema.Proofs.Numerals
import CompactSchema.Proofs.Delimiters
import CompactSchema.Proofs.Overflow
import CompactSchema.Proofs.Symmetry
import CompactSchema.Proofs.Effects
import CompactSchema.Proofs.Reuse
import CompactSchema.Proofs.Dates
import CompactSchema.Proofs.Formats
import CompactSchema.Proofs.Integers
import CompactSchema.Proofs.Walks
import CompactSchema.Proofs.Locations
import CompactSchema.Proofs.Untouched
import CompactSchema.Proofs.Judging
