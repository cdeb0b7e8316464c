import Retrace.Argument
import Retrace.Artifact
import Retrace.Cache
import Retrace.Calendar
import Retrace.Call
import Retrace.Console.Command
import Retrace.Console.Instruction
import Retrace.Console.Run
import Retrace.Console.Shell
import Retrace.Console.Usage
import Retrace.Console.View
import Retrace.Constant
import Retrace.Debugger
import Retrace.Decimal.Binary64
import Retrace.Decimal.Layout
import Retrace.Decimal.Numeral
import Retrace.Decimal.Shortest
import Retrace.Dialogue
import Retrace.Digest
import Retrace.Directory
import Retrace.Document.Basic
import Retrace.Document.Encoding
import Retrace.Environment
import Retrace.Execution.Basic
import Retrace.Execution.Encoding
import Retrace.Execution.Gas
import Retrace.FileError
import Retrace.FileTree
import Retrace.Json.Basic
import Retrace.Json.Number
import Retrace.Json.Reader
import Retrace.Json.Record
import Retrace.Json.Text
import Retrace.Json.Writer
import Retrace.Location
import Retrace.Main
import Retrace.Micheline.Basic
import Retrace.Micheline.Encoding
import Retrace.Michelson.Balance
import Retrace.Michelson.Pair
import Retrace.Path
import Retrace.Pipeline
import Retrace.Receipt
import Retrace.Report
import Retrace.Session
import Retrace.Settings.Basic
import Retrace.Settings.Reader
import Retrace.Target
import Retrace.Text.Blank
import Retrace.Text.Digit
import Retrace.Text.Hidden
import Retrace.Text.Pieces
import Retrace.Text.Quoted
import Retrace.Text.Ranges
import Retrace.Text.Word
import Retrace.Tool
import Retrace.Trace.Basic
import Retrace.Trace.Failure
import Retrace.Trace.Header
import Retrace.Trace.Stack
import Retrace.Proofs.Preorder
import Retrace.Proofs.GasMap
import Retrace.Proofs.Rebuild
import Retrace.Proofs.Session
import Retrace.Proofs.Decimal
import Retrace.Proofs.Text.Marks
import Retrace.Proofs.Text.Trim
import Retrace.Proofs.Trace.Header
import Retrace.Proofs.Trace.Dump
import Retrace.Proofs.Trace.Printed
import Retrace.Proofs.Events
import Retrace.Proofs.Relaunch
import Retrace.Proofs.Json.Number
import Retrace.Proofs.Json.Fraction
import Retrace.Proofs.Json.Text
import Retrace.Proofs.Json.Written
import Retrace.Proofs.Json.Members
import Retrace.Proofs.Document
import Retrace.Proofs.Receipts
import Retrace.Proofs.Cache
import Retrace.Proofs.Store
import Retrace.Proofs.Compilation
import Retrace.Proofs.Transparency
import Retrace.Proofs.Recompilation
import Retrace.Proofs.Analysis
import Retrace.Proofs.Literal
import Retrace.Proofs.Arguments
import Retrace.Proofs.Pairs
import Retrace.Proofs.Trace.Reworded
import Retrace.Proofs.Trace.Failure
import Retrace.Proofs.Trace.Framing
import Retrace.Proofs.Trace.FailureValue
import Retrace.Proofs.Trace.Escapes
import Retrace.Proofs.Trace.Segments
import Retrace.Proofs.Calendar
import Retrace.Proofs.Days
import Retrace.Proofs.Instants
import Retrace.Proofs.AcceptedDates
import Retrace.Proofs.Canonical
import Retrace.Proofs.Search
import Retrace.Proofs.Frames
import Retrace.Proofs.Amount
import Retrace.Proofs.Environment
import Retrace.Proofs.Answers
import Retrace.Proofs.Collection
import Retrace.Proofs.StorageAnswers
import Retrace.Proofs.Substitution
