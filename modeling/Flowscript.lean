import Flowscript.Bundle.Basic
import Flowscript.Bundle.File
import Flowscript.Bundle.Guide
import Flowscript.Bundle.Manifest
import Flowscript.Bundle.Secret
import Flowscript.Code.Line
import Flowscript.Code.Marker
import Flowscript.Code.Sheet
import Flowscript.Connector.Credential
import Flowscript.Connector.Facts
import Flowscript.Connector.Snippet
import Flowscript.EnvFile
import Flowscript.Fault
import Flowscript.Graph.Basic
import Flowscript.Graph.Decode
import Flowscript.Graph.Schema
import Flowscript.Journal
import Flowscript.Json.Printer
import Flowscript.Json.Reader
import Flowscript.Moment
import Flowscript.Number.Binary64
import Flowscript.Number.Numeral
import Flowscript.Number.Shortest
import Flowscript.Options
import Flowscript.Placeholder
import Flowscript.Plan.Basic
import Flowscript.Plan.Names
import Flowscript.PlannedNode
import Flowscript.Proofs.Bodies
import Flowscript.Proofs.Calls
import Flowscript.Proofs.Characters
import Flowscript.Proofs.Closure
import Flowscript.Proofs.Credentials
import Flowscript.Proofs.Declarations
import Flowscript.Proofs.Filling
import Flowscript.Proofs.FunctionTokens
import Flowscript.Proofs.Functions
import Flowscript.Proofs.Globals
import Flowscript.Proofs.Grants
import Flowscript.Proofs.Journal
import Flowscript.Proofs.Landmarks
import Flowscript.Proofs.Lexer
import Flowscript.Proofs.Lines
import Flowscript.Proofs.MarkedMail
import Flowscript.Proofs.Markers
import Flowscript.Proofs.Naming
import Flowscript.Proofs.PropertyReads
import Flowscript.Proofs.Readers
import Flowscript.Proofs.Resolving
import Flowscript.Proofs.RunOrder
import Flowscript.Proofs.Script
import Flowscript.Proofs.Printing
import Flowscript.Proofs.Shapes
import Flowscript.Proofs.Tokens
import Flowscript.Proofs.Triggers
import Flowscript.Proofs.Words
import Flowscript.Proofs.Writing
import Flowscript.Recipe.Basic
import Flowscript.Recipe.Config
import Flowscript.Recipe.Kind
import Flowscript.Recipe.Logic
import Flowscript.Recipe.Remote
import Flowscript.Recipe.Table
import Flowscript.Recipe.Trigger
import Flowscript.Recipe.Workspace
import Flowscript.RunOrder
import Flowscript.Script.Entry
import Flowscript.Script.NodeFunction
import Flowscript.Settings
import Flowscript.Support.Context
import Flowscript.Support.Files
import Flowscript.Support.Request
import Flowscript.Support.Storage
import Flowscript.Text.Blank
import Flowscript.Text.Case
import Flowscript.Text.CaseTable
import Flowscript.Text.Digit
import Flowscript.Text.Printable
import Flowscript.Text.Quoted
import Flowscript.Text.Remark
import Flowscript.Trigger.Installer
import Flowscript.Trigger.Interval
import Flowscript.Trigger.Schedule
import Flowscript.Value.Basic
import Flowscript.Value.Number
import Flowscript.Value.Shown
import Flowscript.Verdict.Basic
import Flowscript.Verdict.Scope
import Flowscript.Verdict.Structure
import Flowscript.Proofs.Cycles
import Flowscript.Proofs.Clock
import Flowscript.Proofs.Locality
import Flowscript.Proofs.Vocabulary
import Flowscript.Proofs.Shipping
import Flowscript.Proofs.PostOrder
import Flowscript.Proofs.RoundTrip
import Flowscript.Proofs.Spelling
import Flowscript.Proofs.Validity
import Flowscript.Proofs.Sources
import Flowscript.Proofs.Leftmost
import Flowscript.Proofs.Numerals
import Flowscript.Proofs.Paths
import Flowscript.Proofs.Nested
import Flowscript.Proofs.ScheduleFields
import Flowscript.Proofs.Schedules
import Flowscript.Proofs.Installing
import Flowscript.Proofs.Snippets
import Flowscript.Proofs.Refilling
import Flowscript.Proofs.Deferral
import Flowscript.Proofs.Verbatim
import Flowscript.Proofs.Embedding
import Flowscript.Proofs.Statements
import Flowscript.Proofs.ItemKeys
import Flowscript.Proofs.Doubles
import Flowscript.Proofs.ReadNumbers
import Flowscript.Proofs.Readable
import Flowscript.Proofs.Writable
import Flowscript.Proofs.Blame
import Flowscript.Proofs.ClockReports
import Flowscript.Proofs.ShortestDigits
import Flowscript.Proofs.NumericLiterals
import Flowscript.Proofs.BareNumbers
import Flowscript.Proofs.FirstFault
import Flowscript.Proofs.Reserved
import Flowscript.Proofs.Results
import Flowscript.Proofs.Narration
import Flowscript.Proofs.Overrides
import Flowscript.Proofs.Attaching
import Flowscript.Proofs.Intervals
import Flowscript.Proofs.Remarks
import Flowscript.Proofs.Scanning
import Flowscript.Proofs.PropertyNames
