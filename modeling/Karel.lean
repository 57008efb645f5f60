import Karel.Decimal
import Karel.Decimal.Notation
import Karel.Decimal.Shortest
import Karel.Decimal.Scientific
import Karel.Glyph
import Karel.Token
import Karel.Lexeme
import Karel.Layout
import Karel.TokenStream
import Karel.Names
import Karel.Capabilities
import Karel.Statement
import Karel.Outline
import Karel.SourceText
import Karel.Procedures
import Karel.WellFormed
import Karel.Grammar
import Karel.ParseError
import Karel.Parse
import Karel.Json
import Karel.Json.Encoding
import Karel.Json.Number
import Karel.Visible
import Karel.Json.Found
import Karel.Json.Fault
import Karel.Json.Reader
import Karel.Descriptor
import Karel.FileTree
import Karel.Alphanumeric
import Karel.Hexadecimal
import Karel.Pattern.Mode
import Karel.Pattern.Escape
import Karel.Pattern.Bracket
import Karel.Pattern
import Karel.Verbosity
import Karel.Log
import Karel.LogFilter
import Karel.Invocation
import Karel.Usage
import Karel.Command
import Karel.Main
import Karel.Proofs.Parse.Soundness
import Karel.Proofs.Parse.Consumption
import Karel.Proofs.Parse.Completeness
import Karel.Proofs.Layout.Kinds
import Karel.Proofs.Parse.Agreement
import Karel.Proofs.Layout.Levels
import Karel.Proofs.Tree.Nesting
import Karel.Proofs.Layout.OpenWidths
import Karel.Proofs.Layout.RawLine
import Karel.Proofs.Layout.Description
import Karel.Proofs.SourceText.Headers
import Karel.Proofs.SourceText.Indentation
import Karel.Proofs.SourceText.LineNumbers
import Karel.Proofs.SourceText.RoundTrip
import Karel.Proofs.Parse.Outlook
import Karel.Proofs.Parse.Following
import Karel.Proofs.Parse.Viability
import Karel.Proofs.Layout.Cuts
import Karel.Proofs.Parse.Locality
import Karel.Proofs.Layout.LeadingLines
import Karel.Proofs.Tree.StartLines
import Karel.Proofs.Layout.Restart
import Karel.Proofs.Layout.Insertion
import Karel.Proofs.Layout.Reindentation
import Karel.Proofs.Tree.Replay
import Karel.Proofs.SourceText.Concatenation
import Karel.Proofs.Parse.Faults
import Karel.Proofs.Parse.Balance
import Karel.Proofs.Parse.Progress
import Karel.Proofs.Parse.Resuming
import Karel.Proofs.Layout.Words
import Karel.Proofs.Tree.Binding
import Karel.Proofs.Tree.Vocabulary
import Karel.Proofs.Tree.Gaps
import Karel.Proofs.Outline.Headings
import Karel.Proofs.Outline.Unambiguity
import Karel.Proofs.SourceText.BlankLines
import Karel.Proofs.SourceText.Comments
import Karel.Proofs.Capabilities.Names
import Karel.Proofs.Json.Strings
import Karel.Proofs.Json.Unambiguity
import Karel.Proofs.Capabilities.Descriptors
import Karel.Proofs.Json.Trees
import Karel.Proofs.Parse.Calls
import Karel.Proofs.Layout.LineEnds
import Karel.Proofs.SourceText.MissingBodies
import Karel.Proofs.SourceText.TrailingWhite
import Karel.Proofs.SourceText.StrayIndents
import Karel.Proofs.Tree.Terminators
import Karel.Proofs.SourceText.FinalNewline
import Karel.Proofs.Layout.Matches
import Karel.Proofs.Layout.Characters
import Karel.Proofs.SourceText.LineTexts
import Karel.Proofs.Capabilities.Acceptance
import Karel.Proofs.Tree.Addresses
import Karel.Proofs.Tree.Procedures
import Karel.Proofs.Parse.Reporting
import Karel.Proofs.Tree.Shadowings
import Karel.Proofs.Command.Checking
import Karel.Proofs.FileTree.Listing
import Karel.Proofs.Parse.Rounds
import Karel.Proofs.Layout.Slices
import Karel.Proofs.SourceText.ByteScanning
