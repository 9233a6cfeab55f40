import EcmaSyntax.Diagnostic
import EcmaSyntax.Dialect
import EcmaSyntax.Form.Basic
import EcmaSyntax.Form.OfTree
import EcmaSyntax.Form.Printer
import EcmaSyntax.Form.Reader
import EcmaSyntax.Grammar.Expression
import EcmaSyntax.Grammar.Function
import EcmaSyntax.Grammar.Literal
import EcmaSyntax.Grammar.Program
import EcmaSyntax.Grammar.Rules
import EcmaSyntax.Grammar.Statement
import EcmaSyntax.Number.Basic
import EcmaSyntax.Number.Decimal
import EcmaSyntax.Number.Literal
import EcmaSyntax.Number.Printer
import EcmaSyntax.Number.Rounding
import EcmaSyntax.Number.Shortest
import EcmaSyntax.Operator
import EcmaSyntax.Position
import EcmaSyntax.Proofs.Accord.Expression
import EcmaSyntax.Proofs.Accord.Lookahead
import EcmaSyntax.Proofs.Accord.Program
import EcmaSyntax.Proofs.Accord.Repetition
import EcmaSyntax.Proofs.Accord.Runs
import EcmaSyntax.Proofs.Accord.Statement
import EcmaSyntax.Proofs.Accord.Texts
import EcmaSyntax.Proofs.Accord.Tokens
import EcmaSyntax.Proofs.Bytes.Bounds
import EcmaSyntax.Proofs.Bytes.Cursor
import EcmaSyntax.Proofs.Bytes.Decoding
import EcmaSyntax.Proofs.Bytes.Dispatch
import EcmaSyntax.Proofs.Bytes.Encoding
import EcmaSyntax.Proofs.Bytes.Lexer
import EcmaSyntax.Proofs.Bytes.LineBreaks
import EcmaSyntax.Proofs.Bytes.Lines
import EcmaSyntax.Proofs.Bytes.LongestToken
import EcmaSyntax.Proofs.Bytes.Scanning
import EcmaSyntax.Proofs.Bytes.Search
import EcmaSyntax.Proofs.Bytes.Stream
import EcmaSyntax.Proofs.Bytes.Trivia
import EcmaSyntax.Proofs.Dialect.Constants
import EcmaSyntax.Proofs.Dialect.Extension
import EcmaSyntax.Proofs.Dialect.Lockstep
import EcmaSyntax.Proofs.Dialect.Productions
import EcmaSyntax.Proofs.Form.Decoder
import EcmaSyntax.Proofs.Form.Decoding
import EcmaSyntax.Proofs.Form.Hashing
import EcmaSyntax.Proofs.Form.Leaves
import EcmaSyntax.Proofs.Form.Moved
import EcmaSyntax.Proofs.Form.Names
import EcmaSyntax.Proofs.Form.Notation
import EcmaSyntax.Proofs.Form.ReadBack
import EcmaSyntax.Proofs.Form.Scalars
import EcmaSyntax.Proofs.Form.Spelling
import EcmaSyntax.Proofs.Form.Tag
import EcmaSyntax.Proofs.Form.Unambiguous
import EcmaSyntax.Proofs.Grammar.Callees
import EcmaSyntax.Proofs.Grammar.Chains
import EcmaSyntax.Proofs.Grammar.Completeness.Expression
import EcmaSyntax.Proofs.Grammar.Completeness.Program
import EcmaSyntax.Proofs.Grammar.Completeness.Repetition
import EcmaSyntax.Proofs.Grammar.Completeness.Statement
import EcmaSyntax.Proofs.Grammar.Constituents
import EcmaSyntax.Proofs.Grammar.Consumed
import EcmaSyntax.Proofs.Grammar.Derivation
import EcmaSyntax.Proofs.Grammar.Edges
import EcmaSyntax.Proofs.Grammar.ForHeader
import EcmaSyntax.Proofs.Grammar.Locations
import EcmaSyntax.Proofs.Grammar.Names
import EcmaSyntax.Proofs.Grammar.Nesting
import EcmaSyntax.Proofs.Grammar.OpenIn
import EcmaSyntax.Proofs.Grammar.Phrase
import EcmaSyntax.Proofs.Grammar.Precedence
import EcmaSyntax.Proofs.Grammar.Progress
import EcmaSyntax.Proofs.Grammar.ReservedNames
import EcmaSyntax.Proofs.Grammar.RestrictedProductions
import EcmaSyntax.Proofs.Grammar.Rows
import EcmaSyntax.Proofs.Grammar.Rule
import EcmaSyntax.Proofs.Grammar.Selection
import EcmaSyntax.Proofs.Grammar.Settling.Blame
import EcmaSyntax.Proofs.Grammar.Settling.Expression
import EcmaSyntax.Proofs.Grammar.Settling.Outcome
import EcmaSyntax.Proofs.Grammar.Settling.Program
import EcmaSyntax.Proofs.Grammar.Settling.Repetition
import EcmaSyntax.Proofs.Grammar.Settling.Statement
import EcmaSyntax.Proofs.Grammar.Soundness.Expression
import EcmaSyntax.Proofs.Grammar.Soundness.Program
import EcmaSyntax.Proofs.Grammar.Soundness.Repetition
import EcmaSyntax.Proofs.Grammar.Soundness.Statement
import EcmaSyntax.Proofs.Grammar.SourceOrder
import EcmaSyntax.Proofs.Grammar.Streaming
import EcmaSyntax.Proofs.Grammar.Structure
import EcmaSyntax.Proofs.Number.Comparison
import EcmaSyntax.Proofs.Number.Decimals
import EcmaSyntax.Proofs.Number.LiteralForms
import EcmaSyntax.Proofs.Number.Nearest
import EcmaSyntax.Proofs.Number.Radix
import EcmaSyntax.Proofs.Number.RadixLiterals
import EcmaSyntax.Proofs.Number.ReadBack
import EcmaSyntax.Proofs.Number.Rounding
import EcmaSyntax.Proofs.Parsing.Ensuring
import EcmaSyntax.Proofs.Parsing.Running
import EcmaSyntax.Proofs.Printing.Operators
import EcmaSyntax.Proofs.Printing.Printable
import EcmaSyntax.Proofs.Printing.Reparsing
import EcmaSyntax.Proofs.Printing.RoundTrip
import EcmaSyntax.Proofs.Printing.Statement.Clauses
import EcmaSyntax.Proofs.Printing.Statement.Printable
import EcmaSyntax.Proofs.Printing.Statement.Reparsing
import EcmaSyntax.Proofs.Printing.Statement.RoundTrip
import EcmaSyntax.Proofs.Printing.Words
import EcmaSyntax.Proofs.Text.Classes
import EcmaSyntax.Proofs.Text.Cutting
import EcmaSyntax.Proofs.Text.Digits
import EcmaSyntax.Proofs.Text.Numerals
import EcmaSyntax.Proofs.Text.Positions
import EcmaSyntax.Proofs.Text.Units
import EcmaSyntax.Proofs.Token.Buffering
import EcmaSyntax.Proofs.Token.Checkpoints
import EcmaSyntax.Proofs.Token.Cursor
import EcmaSyntax.Proofs.Token.EscapedNames
import EcmaSyntax.Proofs.Token.Found
import EcmaSyntax.Proofs.Token.InputEnd
import EcmaSyntax.Proofs.Token.LongestMatch
import EcmaSyntax.Proofs.Token.Modes
import EcmaSyntax.Proofs.Token.Names
import EcmaSyntax.Proofs.Token.Newlines
import EcmaSyntax.Proofs.Token.NumberLiterals
import EcmaSyntax.Proofs.Token.Numbers
import EcmaSyntax.Proofs.Token.Quoted
import EcmaSyntax.Proofs.Token.Reading
import EcmaSyntax.Proofs.Token.RegexLiterals
import EcmaSyntax.Proofs.Token.Relocation
import EcmaSyntax.Proofs.Token.Replacing
import EcmaSyntax.Proofs.Token.Scanning
import EcmaSyntax.Proofs.Token.Spelled
import EcmaSyntax.Proofs.Token.StringLiterals
import EcmaSyntax.Proofs.Token.Tiling
import EcmaSyntax.Proofs.Token.Transparency
import EcmaSyntax.Proofs.Token.Trivia
import EcmaSyntax.Proofs.Transport.Carrying
import EcmaSyntax.Proofs.Transport.Closing
import EcmaSyntax.Proofs.Transport.Concatenation
import EcmaSyntax.Proofs.Transport.Derivation
import EcmaSyntax.Proofs.Transport.Enclosing
import EcmaSyntax.Proofs.Transport.Ended
import EcmaSyntax.Proofs.Transport.Layout
import EcmaSyntax.Proofs.Transport.Lookahead
import EcmaSyntax.Proofs.Transport.Moving
import EcmaSyntax.Proofs.Transport.Sealing
import EcmaSyntax.Proofs.Transport.Slices
import EcmaSyntax.Proofs.Tree.Grouping
import EcmaSyntax.Proofs.Tree.Induction
import EcmaSyntax.Proofs.Tree.Moved
import EcmaSyntax.Proofs.Tree.Node
import EcmaSyntax.Proofs.Tree.Nodes
import EcmaSyntax.Proofs.Tree.Placeless
import EcmaSyntax.Span
import EcmaSyntax.Text.Alphabetic
import EcmaSyntax.Text.Blank
import EcmaSyntax.Text.Digit
import EcmaSyntax.Text.Escape
import EcmaSyntax.Text.Identifier
import EcmaSyntax.Text.Interval
import EcmaSyntax.Text.Numeric
import EcmaSyntax.Text.Size
import EcmaSyntax.Text.Units
import EcmaSyntax.Token.Basic
import EcmaSyntax.Token.Buffer
import EcmaSyntax.Token.Kind
import EcmaSyntax.Token.Lexeme
import EcmaSyntax.Token.Spelling
import EcmaSyntax.Token.Stream
import EcmaSyntax.Token.Trivia
import EcmaSyntax.Trace
import EcmaSyntax.Tree.Basic
import EcmaSyntax.Tree.Outline
import EcmaSyntax.Tree.Record
