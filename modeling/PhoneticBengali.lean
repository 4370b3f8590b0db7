import PhoneticBengali.Bundled
import PhoneticBengali.Calendar.Date
import PhoneticBengali.Calendar.Timestamp
import PhoneticBengali.Command.Arguments
import PhoneticBengali.Command.Convert
import PhoneticBengali.Command.Invocation
import PhoneticBengali.Command.Rules
import PhoneticBengali.Command.Run
import PhoneticBengali.Command.Session
import PhoneticBengali.Document.Basic
import PhoneticBengali.Document.Inline
import PhoneticBengali.Files.Path
import PhoneticBengali.Files.Read
import PhoneticBengali.Files.Tree
import PhoneticBengali.Files.Write
import PhoneticBengali.Forward
import PhoneticBengali.Journal.Basic
import PhoneticBengali.Journal.Line
import PhoneticBengali.Journal.Record
import PhoneticBengali.Journal.Request
import PhoneticBengali.Journal.Word
import PhoneticBengali.Json.Parser
import PhoneticBengali.Json.Pieces
import PhoneticBengali.Json.Printer
import PhoneticBengali.Keystroke
import PhoneticBengali.Main
import PhoneticBengali.Mode
import PhoneticBengali.Number.Binary64
import PhoneticBengali.Number.Decimal
import PhoneticBengali.Number.Magnitude
import PhoneticBengali.Number.Numeral
import PhoneticBengali.Number.Shortest
import PhoneticBengali.Proofs.Alone
import PhoneticBengali.Proofs.Boundary
import PhoneticBengali.Proofs.Break
import PhoneticBengali.Proofs.Bundled.Basic
import PhoneticBengali.Proofs.Bundled.Coverage
import PhoneticBengali.Proofs.Bundled.Linewise
import PhoneticBengali.Proofs.Bundled.LiveRules
import PhoneticBengali.Proofs.Bundled.OpenSyllables
import PhoneticBengali.Proofs.Bundled.Settling
import PhoneticBengali.Proofs.Bundled.VowelSigns
import PhoneticBengali.Proofs.Case
import PhoneticBengali.Proofs.Ceiling
import PhoneticBengali.Proofs.Characters
import PhoneticBengali.Proofs.Cleanup
import PhoneticBengali.Proofs.Command.ConvertLines
import PhoneticBengali.Proofs.Command.Course
import PhoneticBengali.Proofs.Command.Endings
import PhoneticBengali.Proofs.Command.ExportReverse
import PhoneticBengali.Proofs.Command.Traces
import PhoneticBengali.Proofs.DeadRules
import PhoneticBengali.Proofs.Division
import PhoneticBengali.Proofs.Files.Growth
import PhoneticBengali.Proofs.Files.Writing
import PhoneticBengali.Proofs.Journal.Attempt
import PhoneticBengali.Proofs.Journal.Calls
import PhoneticBengali.Proofs.Json.Pieces
import PhoneticBengali.Proofs.LongestFirst
import PhoneticBengali.Proofs.LongestMatch
import PhoneticBengali.Proofs.LookAhead
import PhoneticBengali.Proofs.Mode
import PhoneticBengali.Proofs.Passes
import PhoneticBengali.Proofs.Pending
import PhoneticBengali.Proofs.ReverseScan
import PhoneticBengali.Proofs.Rule.Condition
import PhoneticBengali.Proofs.Rule.Description
import PhoneticBengali.Proofs.Rule.Dropped
import PhoneticBengali.Proofs.Rule.Grammar
import PhoneticBengali.Proofs.Rule.Order
import PhoneticBengali.Proofs.Segmentation
import PhoneticBengali.Proofs.Settled
import PhoneticBengali.Proofs.Surroundings
import PhoneticBengali.Proofs.Text.Linewise
import PhoneticBengali.Proofs.Typing
import PhoneticBengali.Proofs.Unknown
import PhoneticBengali.Proofs.WayBack
import PhoneticBengali.Proofs.Window
import PhoneticBengali.Reverse
import PhoneticBengali.Roman
import PhoneticBengali.Rule.Basic
import PhoneticBengali.Rule.File
import PhoneticBengali.Rule.Grammar
import PhoneticBengali.Rule.Order
import PhoneticBengali.Rule.Window
import PhoneticBengali.Settings
import PhoneticBengali.Text.Basic
import PhoneticBengali.Text.Hex
import PhoneticBengali.Text.Lines
import PhoneticBengali.Text.LowerCase
import PhoneticBengali.Text.Parts
import PhoneticBengali.Text.Printable
import PhoneticBengali.Text.Quoted
import PhoneticBengali.Text.Terminal
import PhoneticBengali.Text.UpperCase
import PhoneticBengali.Text.Utf8
import PhoneticBengali.Yaml.Cursor
import PhoneticBengali.Yaml.Fault
import PhoneticBengali.Yaml.Layout
import PhoneticBengali.Yaml.Moment
import PhoneticBengali.Yaml.Node
import PhoneticBengali.Yaml.Plain
import PhoneticBengali.Yaml.Scalar
import PhoneticBengali.Yaml.Tagged
import PhoneticBengali.Yaml.Token
import PhoneticBengali.Yaml.Value
