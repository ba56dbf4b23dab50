import WordMachine.Action
import WordMachine.Code
import WordMachine.Command.Display
import WordMachine.Command.Invocation
import WordMachine.Command.Response
import WordMachine.Command.Session
import WordMachine.Decimal.Shortest
import WordMachine.Execution
import WordMachine.Fault
import WordMachine.FileTree
import WordMachine.Fixture.Basic
import WordMachine.Fixture.Reading
import WordMachine.Fixture.Report
import WordMachine.Fixture.Suite
import WordMachine.Fixture.Trouble
import WordMachine.Fixture.Verdict
import WordMachine.Json.Number
import WordMachine.Json.Problem
import WordMachine.Json.Reader
import WordMachine.Json.Record
import WordMachine.Json.Skip
import WordMachine.Json.Token
import WordMachine.Json.Value
import WordMachine.Listing
import WordMachine.Literal
import WordMachine.LogFilter
import WordMachine.Machine
import WordMachine.Main
import WordMachine.Memory
import WordMachine.Operation.Basic
import WordMachine.Operation.Metadata
import WordMachine.Pattern.Basic
import WordMachine.Pattern.Reading
import WordMachine.Pattern.Support
import WordMachine.Settings
import WordMachine.Stack
import WordMachine.Text.Blank
import WordMachine.Text.Hex
import WordMachine.Text.Letter
import WordMachine.Text.Parts
import WordMachine.Text.Printed
import WordMachine.Text.Quoted
import WordMachine.Text.Ranges
import WordMachine.Toml.Basic
import WordMachine.Toml.Document
import WordMachine.Toml.Layout
import WordMachine.Toml.Moment
import WordMachine.Toml.Number
import WordMachine.Toml.Text
import WordMachine.Word.Basic
import WordMachine.Word.BigEndian
import WordMachine.Word.Rendering
import WordMachine.Word.Signed
import WordMachine.World
import WordMachine.Proofs.MemoryGrowth
import WordMachine.Proofs.Outcome
import WordMachine.Proofs.InPlace
import WordMachine.Proofs.Transition
import WordMachine.Proofs.Reachable
import WordMachine.Proofs.StepLimit
import WordMachine.Proofs.StraightLine
import WordMachine.Proofs.Schedule
import WordMachine.Proofs.CodeExtension
import WordMachine.Proofs.StackFrame
import WordMachine.Proofs.MemoryLimit
import WordMachine.Proofs.OperationTable
import WordMachine.Proofs.FaultCauses
import WordMachine.Proofs.Footprint
import WordMachine.Proofs.ListingEntries
import WordMachine.Proofs.Decoding
import WordMachine.Proofs.BigEndian
import WordMachine.Proofs.StrictWords
import WordMachine.Proofs.StrictAccess
import WordMachine.Proofs.StrictStep
import WordMachine.Proofs.MemoryMap
import WordMachine.Proofs.Reassembly
import WordMachine.Proofs.ReportContents
import WordMachine.Proofs.WordAccess
import WordMachine.Proofs.ByteOrder
import WordMachine.Proofs.DirectoryRun
import WordMachine.Proofs.Payload
import WordMachine.Proofs.TomlStrings
import WordMachine.Proofs.SettingsText
import WordMachine.Proofs.SettingsHistory
import WordMachine.Proofs.SignedDivision
import WordMachine.Proofs.Power
import WordMachine.Proofs.SignedShift
import WordMachine.Proofs.ModularArithmetic
import WordMachine.Proofs.SignedOrder
import WordMachine.Proofs.BytesRoundTrip
import WordMachine.Proofs.ByteExtraction
import WordMachine.Proofs.Numerals
import WordMachine.Proofs.HexText
import WordMachine.Proofs.Literals
import WordMachine.Proofs.RenderedWords
import WordMachine.Proofs.StateKeys
import WordMachine.Proofs.WorldAccounts
import WordMachine.Proofs.StackCalls
import WordMachine.Proofs.FixtureVerdict
