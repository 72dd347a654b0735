import XofConformance.Text.Basic
import XofConformance.Text.Utf8
import XofConformance.Bytes.Basic
import XofConformance.Text.Printable
import XofConformance.Text.Blank
import XofConformance.Text.Digit
import XofConformance.Text.CaseTable
import XofConformance.Text.LowerCase
import XofConformance.Text.Quoted
import XofConformance.Number.Binary64
import XofConformance.Number.Shortest
import XofConformance.Number.Basic
import XofConformance.Bytes.Hex
import XofConformance.Bytes.Word32
import XofConformance.Json.Basic
import XofConformance.Json.Reader
import XofConformance.Json.Writer
import XofConformance.Json.Display
import XofConformance.Json.Equality
import XofConformance.Fault
import XofConformance.Bytes.Codec
import XofConformance.VectorSet.Basic
import XofConformance.VectorSet.Document
import XofConformance.VectorSet.Envelope
import XofConformance.VectorSet.Shape
import XofConformance.VectorSet.Reader
import XofConformance.Algorithm
import XofConformance.Prepared.Basic
import XofConformance.Prepared.Validation
import XofConformance.Response
import XofConformance.Exchange.Call
import XofConformance.Exchange.Pool
import XofConformance.Exchange.Desk
import XofConformance.Exchange.Assembler
import XofConformance.Run.Functional
import XofConformance.Run.MonteCarlo
import XofConformance.Run.Process
import XofConformance.Run.Source
import XofConformance.Comparison.Normal
import XofConformance.Comparison.Index
import XofConformance.Comparison.Basic
import XofConformance.Xml
import XofConformance.Junit
import XofConformance.Number.Literal
import XofConformance.Text.ShellWords
import XofConformance.Yaml.Cursor
import XofConformance.Yaml.Token
import XofConformance.Yaml.Token.Name
import XofConformance.Yaml.Token.Lexer
import XofConformance.Yaml.Kind
import XofConformance.Yaml.Timestamp
import XofConformance.Yaml.Node
import XofConformance.Yaml.Node.Reader
import XofConformance.Bytes.Base64
import XofConformance.Number.Arithmetic
import XofConformance.Yaml.Scalar
import XofConformance.Yaml.Value
import XofConformance.Yaml.Value.Reader
import XofConformance.Config
import XofConformance.Actor.Client
import XofConformance.Actor.Channel
import XofConformance.CommandLine.Arguments
import XofConformance.CommandLine.Path
import XofConformance.CommandLine.Host
import XofConformance.CommandLine.Report
import XofConformance.CommandLine.Run
import XofConformance.CommandLine.Store
import XofConformance.Main
import XofConformance.Proofs.Exchange.Runs
import XofConformance.Proofs.Exchange.Workers
import XofConformance.Proofs.Exchange.Operations
import XofConformance.Proofs.Exchange.Account
import XofConformance.Proofs.Exchange.Desk
import XofConformance.Proofs.Run.Functional
import XofConformance.Proofs.Run.MonteCarlo
import XofConformance.Proofs.Run.Process
import XofConformance.Proofs.Number.Words
import XofConformance.Proofs.Prepared.Validation
import XofConformance.Proofs.Run.Reference
import XofConformance.Proofs.Run.Mirror
import XofConformance.Proofs.Exchange.History
import XofConformance.Proofs.Exchange.Session
import XofConformance.Proofs.Run.Stateless
import XofConformance.Proofs.Actor.Reply
import XofConformance.Proofs.Actor.Traffic
import XofConformance.Proofs.Actor.Soundness
import XofConformance.Proofs.Actor.Progress
import XofConformance.Proofs.Exchange.Able
import XofConformance.Proofs.Run.Able
import XofConformance.Proofs.Run.Actor
import XofConformance.Proofs.Json.Reading
import XofConformance.Proofs.Run.Drained
import XofConformance.Proofs.Run.Faults
import XofConformance.Proofs.Run.Each
import XofConformance.Proofs.Exchange.Log
import XofConformance.Proofs.Run.Barrier
import XofConformance.Proofs.Bytes.Hex
import XofConformance.Proofs.Prepared.Distinct
import XofConformance.Proofs.Prepared.WellFormed
import XofConformance.Proofs.Number.Integral
import XofConformance.Proofs.VectorSet.Lengths
import XofConformance.Proofs.Run.Callable
import XofConformance.Proofs.Actor.Notice
import XofConformance.Proofs.Prepared.Refusals
import XofConformance.Proofs.Actor.Bookkeeping
import XofConformance.Proofs.Actor.Orderly
import XofConformance.Proofs.Actor.Lateness
import XofConformance.Proofs.Comparison.Entries
import XofConformance.Proofs.Comparison.Coverage
import XofConformance.Proofs.Comparison.Agreement
import XofConformance.Proofs.Comparison.Matching
import XofConformance.Proofs.Number.Written
import XofConformance.Proofs.Json.Escapes
import XofConformance.Proofs.Json.RoundTrip
import XofConformance.Proofs.Json.Files
import XofConformance.Proofs.Comparison.Reflexive
import XofConformance.Proofs.Comparison.Stored
import XofConformance.Proofs.VectorSet.Envelope
import XofConformance.Proofs.Run.Confirmed
import XofConformance.Proofs.Comparison.Omission
import XofConformance.Proofs.Run.Omission
import XofConformance.Proofs.VectorSet.Framing
import XofConformance.Proofs.Comparison.Outcomes
import XofConformance.Proofs.Json.Keys
import XofConformance.Proofs.Comparison.Lacking
import XofConformance.Proofs.VectorSet.Decoding
import XofConformance.Proofs.VectorSet.Wrapping
import XofConformance.Proofs.Actor.Wire
import XofConformance.Proofs.CommandLine.Archive
import XofConformance.Proofs.CommandLine.Stages
import XofConformance.Proofs.Run.Chain
import XofConformance.Proofs.Run.Breaking
import XofConformance.Proofs.CommandLine.Reporting
import XofConformance.Proofs.CommandLine.Stopping
import XofConformance.Proofs.Exchange.Assembler
import XofConformance.Proofs.Exchange.Outstanding
import XofConformance.Proofs.Comparison.Digests
import XofConformance.Proofs.Number.Positive
import XofConformance.Proofs.Config.Settings
import XofConformance.Proofs.Config.Variables
import XofConformance.Proofs.Config.Obtainable
import XofConformance.Proofs.Config.Keys
import XofConformance.Proofs.Config.Outcomes
import XofConformance.Proofs.Config.Merging
import XofConformance.Proofs.CommandLine.Settings
import XofConformance.Proofs.Bytes.Digits
import XofConformance.Proofs.Bytes.Words
import XofConformance.Proofs.Comparison.Equivalence
import XofConformance.Proofs.Xml.Grammar
import XofConformance.Proofs.Xml.Writing
import XofConformance.Proofs.Xml.Suites
import XofConformance.Proofs.Response.Reading
