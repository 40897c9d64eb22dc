import LoxLexer.Kind
import LoxLexer.Text.BreakClass
import LoxLexer.Text.Cluster
import LoxLexer.Text.Backspace
import LoxLexer.Text.Control
import LoxLexer.Text.ControlSequence
import LoxLexer.Span
import LoxLexer.Number.Binary64
import LoxLexer.Number.Numeral
import LoxLexer.Number.Shortest
import LoxLexer.Number.Style
import LoxLexer.Token
import LoxLexer.Lead
import LoxLexer.Piece
import LoxLexer.Diagnostic
import LoxLexer.Fault
import LoxLexer.Finding
import LoxLexer.Event
import LoxLexer.Scan
import LoxLexer.Json
import LoxLexer.Rendering
import LoxLexer.Session
import LoxLexer.CommandLine.Options
import LoxLexer.CommandLine.Arguments
import LoxLexer.CommandLine.Directory
import LoxLexer.CommandLine.Run
import LoxLexer.Main
import LoxLexer.Proofs.Grammar
import LoxLexer.Proofs.Division
import LoxLexer.Proofs.Lookahead
import LoxLexer.Proofs.Place
import LoxLexer.Proofs.LongestMatch
import LoxLexer.Proofs.Layout
import LoxLexer.Proofs.Unparse
import LoxLexer.Proofs.Bytes
import LoxLexer.Proofs.Tiling
import LoxLexer.Proofs.LineEndings
import LoxLexer.Proofs.Lines
import LoxLexer.Proofs.Modes
import LoxLexer.Proofs.Reporting
import LoxLexer.Proofs.Joining
import LoxLexer.Proofs.Cutting
import LoxLexer.Proofs.Appending
import LoxLexer.Proofs.Listing
import LoxLexer.Proofs.Rounding
import LoxLexer.Proofs.ShortestDecimal
import LoxLexer.Proofs.NumberText
import LoxLexer.Proofs.JsonReader
import LoxLexer.Proofs.JsonReading
import LoxLexer.Proofs.Document
import LoxLexer.Proofs.RoundedRatio
import LoxLexer.Proofs.NumberLiteral
import LoxLexer.Proofs.FewestDigits
import LoxLexer.Proofs.PrintedNumber
import LoxLexer.Proofs.SharedReporter
import LoxLexer.Proofs.Trace
import LoxLexer.Proofs.InputLines
import LoxLexer.Proofs.LineByLine
import LoxLexer.Proofs.Flags
import LoxLexer.Proofs.FileRun
import LoxLexer.Proofs.SessionRun
import LoxLexer.Proofs.FileAndSession
import LoxLexer.Proofs.Blanking
import LoxLexer.Proofs.Recovery
import LoxLexer.Proofs.Comments
import LoxLexer.Proofs.Verbosity
import LoxLexer.Proofs.Labels
import LoxLexer.Proofs.DiagnosticText
import LoxLexer.Proofs.TokenEquality
import LoxLexer.Proofs.Cursor
import LoxLexer.Proofs.CursorStep
import LoxLexer.Proofs.CursorRun
