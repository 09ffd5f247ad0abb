import PathPattern.Key
import PathPattern.Lexeme.Basic
import PathPattern.Error
import PathPattern.Lexeme.Cursor
import PathPattern.Text.CodeRange
import PathPattern.Text.Utf8
import PathPattern.Text.Percent
import PathPattern.Text.Search
import PathPattern.Text.Identifier
import PathPattern.Text.CaseFold
import PathPattern.Text.Quoted
import PathPattern.Token.Basic
import PathPattern.Token.Parser
import PathPattern.Token.Printer
import PathPattern.Token.Alternative
import PathPattern.Regex.Attempt
import PathPattern.Regex.Basic
import PathPattern.Regex.Printer
import PathPattern.Regex.Search
import PathPattern.Options
import PathPattern.Pattern
import PathPattern.Sequence
import PathPattern.Route
import PathPattern.Params
import PathPattern.Matcher
import PathPattern.Composer
import PathPattern.Log
import PathPattern.Json
import PathPattern.Session
import PathPattern.Proofs.NormalForm
import PathPattern.Proofs.Reading
import PathPattern.Proofs.RoundTrip
import PathPattern.Proofs.Ways
import PathPattern.Proofs.Avoiding
import PathPattern.Proofs.Decomposition
import PathPattern.Proofs.Synthesis
import PathPattern.Proofs.Matching
import PathPattern.Proofs.RegexReader
import PathPattern.Proofs.RouteSource
import PathPattern.Proofs.Percent
import PathPattern.Proofs.SegmentPatterns
import PathPattern.Proofs.MatchComposed
import PathPattern.Proofs.Alternatives
import PathPattern.Proofs.SuppliedAlternative
import PathPattern.Proofs.Separators
import PathPattern.Proofs.ComposeMatched
import PathPattern.Proofs.Grammar
import PathPattern.Proofs.FirstMatch
import PathPattern.Proofs.PrintDomain
import PathPattern.Proofs.OptionalGroups
import PathPattern.Proofs.TrailingDelimiter
import PathPattern.Proofs.AdjacentCaptures
import PathPattern.Proofs.ComposeErrors
import PathPattern.Proofs.SyntaxErrors
import PathPattern.Proofs.PrefixMatch
import PathPattern.Proofs.UniqueCut
import PathPattern.Proofs.CanonicalPrint
import PathPattern.Proofs.EncodedTexts
import PathPattern.Proofs.ClearRuns
import PathPattern.Proofs.LexerRuns
