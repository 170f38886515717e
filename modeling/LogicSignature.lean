import LogicSignature.Calendar
import LogicSignature.Catalog
import LogicSignature.CommandLine.Command
import LogicSignature.CommandLine.Grammar
import LogicSignature.CommandLine.Piece
import LogicSignature.CommandLine.Reading
import LogicSignature.CommandLine.Run
import LogicSignature.ConstBlock
import LogicSignature.Data.Arrangement
import LogicSignature.Data.Basic
import LogicSignature.Data.Content
import LogicSignature.Data.Display
import LogicSignature.Data.Document
import LogicSignature.Data.Graph
import LogicSignature.Fault
import LogicSignature.Hex
import LogicSignature.Journal.Event
import LogicSignature.Journal.Note
import LogicSignature.Journal.Registry
import LogicSignature.Json.Reader
import LogicSignature.Json.Writer
import LogicSignature.LangSpec.Basic
import LogicSignature.LangSpec.Bundled
import LogicSignature.LangSpec.Fault
import LogicSignature.LangSpec.Violation
import LogicSignature.Main
import LogicSignature.Number.Binary64
import LogicSignature.Number.Numeral
import LogicSignature.Number.Quantity
import LogicSignature.Number.Shortest
import LogicSignature.Opcode.Descriptor
import LogicSignature.Opcode.Table
import LogicSignature.Output.Format
import LogicSignature.Output.Grid
import LogicSignature.Program.BlockAt
import LogicSignature.Program.Rejection
import LogicSignature.Program.Scan
import LogicSignature.Program.Statement
import LogicSignature.Program.Validation
import LogicSignature.Proofs.Actions
import LogicSignature.Proofs.BlockExtent
import LogicSignature.Proofs.BlockGrammar
import LogicSignature.Proofs.BlockPayload
import LogicSignature.Proofs.CallHistory
import LogicSignature.Proofs.CommandOutcomes
import LogicSignature.Proofs.CommandRuns
import LogicSignature.Proofs.Concatenation
import LogicSignature.Proofs.DataBytes
import LogicSignature.Proofs.DeclaredSettings
import LogicSignature.Proofs.DefaultFiles
import LogicSignature.Proofs.EncodedText
import LogicSignature.Proofs.EscapedText
import LogicSignature.Proofs.ExactQuantity
import LogicSignature.Proofs.FaultSources
import LogicSignature.Proofs.FileEntries
import LogicSignature.Proofs.FlatRecords
import LogicSignature.Proofs.Gates
import LogicSignature.Proofs.GridLayout
import LogicSignature.Proofs.HexGrammar
import LogicSignature.Proofs.HexText
import LogicSignature.Proofs.IntegerTables
import LogicSignature.Proofs.IntegralQuantity
import LogicSignature.Proofs.JsonRoundTrip
import LogicSignature.Proofs.LangSpecFiles
import LogicSignature.Proofs.LangSpecSources
import LogicSignature.Proofs.LegibleValues
import LogicSignature.Proofs.LoadedTable
import LogicSignature.Proofs.LogLines
import LogicSignature.Proofs.LoggerAncestry
import LogicSignature.Proofs.LoggerHistory
import LogicSignature.Proofs.LoggerNotes
import LogicSignature.Proofs.LoggerRegistry
import LogicSignature.Proofs.LoggerSetup
import LogicSignature.Proofs.LongIntegers
import LogicSignature.Proofs.MappingLines
import LogicSignature.Proofs.NameBytes
import LogicSignature.Proofs.NearestReal
import LogicSignature.Proofs.NumberText
import LogicSignature.Proofs.OpcodeTable
import LogicSignature.Proofs.PathLocality
import LogicSignature.Proofs.PathText
import LogicSignature.Proofs.PlainScalars
import LogicSignature.Proofs.ProgramSources
import LogicSignature.Proofs.QuietRuns
import LogicSignature.Proofs.QuotedScalars
import LogicSignature.Proofs.RefusalWording
import LogicSignature.Proofs.ScanBounds
import LogicSignature.Proofs.ScanPath
import LogicSignature.Proofs.SchemaPlaces
import LogicSignature.Proofs.SettingsDocument
import LogicSignature.Proofs.SettingsExport
import LogicSignature.Proofs.SettingsHistory
import LogicSignature.Proofs.SettingsLoading
import LogicSignature.Proofs.SettingsValidity
import LogicSignature.Proofs.ShortestDecimal
import LogicSignature.Proofs.SpecDocument
import LogicSignature.Proofs.SpecTable
import LogicSignature.Proofs.SurroundedText
import LogicSignature.Proofs.TableLifecycle
import LogicSignature.Proofs.TextRuns
import LogicSignature.Proofs.Truncation
import LogicSignature.Proofs.UnconsumedFields
import LogicSignature.Proofs.VarintDecoding
import LogicSignature.Proofs.VarintEncoding
import LogicSignature.Proofs.ViolationList
import LogicSignature.Proofs.WrittenScalars
import LogicSignature.Session.Checking
import LogicSignature.Session.Configuring
import LogicSignature.Session.Language
import LogicSignature.Session.Logging
import LogicSignature.Session.State
import LogicSignature.Settings.Basic
import LogicSignature.Settings.Environment
import LogicSignature.Settings.Fault
import LogicSignature.Settings.Setting
import LogicSignature.Storage.Path
import LogicSignature.Storage.Tree
import LogicSignature.Text.Blank
import LogicSignature.Text.CodePoint
import LogicSignature.Text.Digit
import LogicSignature.Text.LowerCase
import LogicSignature.Text.Printable
import LogicSignature.Text.Quoted
import LogicSignature.Text.Stream
import LogicSignature.Text.Utf8
import LogicSignature.Value.Basic
import LogicSignature.Value.Display
import LogicSignature.Varint
import LogicSignature.Yaml.Cursor
import LogicSignature.Yaml.Fault
import LogicSignature.Yaml.Meaning
import LogicSignature.Yaml.Merge
import LogicSignature.Yaml.Node
import LogicSignature.Yaml.Outline
import LogicSignature.Yaml.Plain
import LogicSignature.Yaml.Reader
import LogicSignature.Yaml.Scalar
import LogicSignature.Yaml.Token
import LogicSignature.Yaml.Writer
