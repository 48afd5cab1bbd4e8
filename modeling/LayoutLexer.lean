import LayoutLexer.Directory
import LayoutLexer.Main
import LayoutLexer.Proofs.Lines
import LayoutLexer.Script
import LayoutLexer.Proofs.LineEnds
import LayoutLexer.Proofs.LineByLine
import LayoutLexer.Proofs.Stream
import LayoutLexer.Proofs.LineTokens
import LayoutLexer.Proofs.OpenLevels
import LayoutLexer.Proofs.Protocol
import LayoutLexer.Proofs.IndentEncoding
import LayoutLexer.Proofs.CheckerRuns
import LayoutLexer.Proofs.WellBlocked
import LayoutLexer.Proofs.Places
import LayoutLexer.Proofs.Positions
import LayoutLexer.Proofs.Coverage
import LayoutLexer.Proofs.Spelling
import LayoutLexer.Proofs.Rendering
import LayoutLexer.Proofs.Restating
import LayoutLexer.Proofs.Concatenation
import LayoutLexer.Proofs.BlockGrammar
import LayoutLexer.Proofs.LineTerminators
import LayoutLexer.Proofs.SkippedLines
import LayoutLexer.Proofs.Reindentation
import LayoutLexer.Proofs.StreamShape
import LayoutLexer.Proofs.FinalNewline
import LayoutLexer.Proofs.DepthAgreement
import LayoutLexer.Proofs.Moments
import LayoutLexer.Proofs.Bytes
import LayoutLexer.Proofs.Pushes
import LayoutLexer.Proofs.Refusals
import LayoutLexer.Proofs.CheckedScan
import LayoutLexer.Proofs.CheckedSession
import LayoutLexer.Proofs.Popping
import LayoutLexer.Proofs.OffsideRule
import LayoutLexer.Proofs.MaximalMunch
import LayoutLexer.Proofs.Dispatch
import LayoutLexer.Proofs.Reading
import LayoutLexer.Proofs.ProcessContract
import LayoutLexer.Proofs.Lookahead
import LayoutLexer.Proofs.FailingLines
import LayoutLexer.Proofs.Surroundings
import LayoutLexer.Proofs.LexicalErrors
import LayoutLexer.Proofs.Spacing
import LayoutLexer.Proofs.TokenKinds
import LayoutLexer.Proofs.Room
import LayoutLexer.Proofs.CheckerInvariant
import LayoutLexer.Proofs.Chronicle
import LayoutLexer.Proofs.LogEntries
import LayoutLexer.Proofs.TruthfulLog
import LayoutLexer.Proofs.QuotedReading
import LayoutLexer.Proofs.ListingDecoding
import LayoutLexer.Proofs.JsonReader
import LayoutLexer.Proofs.JsonReport
import LayoutLexer.Proofs.CappedReading
