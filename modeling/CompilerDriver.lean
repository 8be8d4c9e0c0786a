import CompilerDriver.FileTree
import CompilerDriver.Main
import CompilerDriver.Session
import CompilerDriver.TimedReads
import CompilerDriver.Proofs.OrderedAcquisition
import CompilerDriver.Proofs.JoinedReads
import CompilerDriver.Proofs.CompilerOutcome
import CompilerDriver.Proofs.SystemReads
import CompilerDriver.Proofs.ProgramOutcome
import CompilerDriver.Proofs.JsonGrammar
import CompilerDriver.Proofs.StringReading
import CompilerDriver.Proofs.NumberReading
import CompilerDriver.Proofs.ValueSkipping
import CompilerDriver.Proofs.RecordReading
import CompilerDriver.Proofs.DiagnosticReading
import CompilerDriver.Proofs.ReportedDiagnostics
import CompilerDriver.Proofs.ResolvedBuffers
import CompilerDriver.Proofs.RenderedDiagnostics
import CompilerDriver.Proofs.PathlessExterns
import CompilerDriver.Proofs.KeptExterns
import CompilerDriver.Proofs.WrittenText
import CompilerDriver.Proofs.BufferReading
import CompilerDriver.Proofs.LabelledArguments
import CompilerDriver.Proofs.HandOff
import CompilerDriver.Proofs.Utf8Order
import CompilerDriver.Proofs.DefineMap
import CompilerDriver.Proofs.DefinePrecedence
import CompilerDriver.Proofs.NearestDouble
import CompilerDriver.Proofs.ShortestNumeral
import CompilerDriver.Proofs.NumeralText
import CompilerDriver.Proofs.EmittedDefines
import CompilerDriver.Proofs.Recovery
import CompilerDriver.Proofs.RecoveredRecords
import CompilerDriver.Proofs.StepwiseReading
import CompilerDriver.Proofs.DocumentNumeral
import CompilerDriver.Proofs.RecoveredDefines
import CompilerDriver.Proofs.ExactReading
import CompilerDriver.Proofs.RecoveredFlags
import CompilerDriver.Proofs.TruncatedOutput
import CompilerDriver.Proofs.ContextWindow
import CompilerDriver.Proofs.SharedInput
import CompilerDriver.Proofs.WrittenNumeral
import CompilerDriver.Proofs.NearestValue
import CompilerDriver.Proofs.ClassifiedText
import CompilerDriver.Proofs.CaretColumns
import CompilerDriver.Proofs.Base64Decoding
import CompilerDriver.Proofs.EmbeddedSourceMap
import CompilerDriver.Proofs.ColoredReport
import CompilerDriver.Proofs.SteadyReaders
import CompilerDriver.Proofs.SteadyRecords
import CompilerDriver.Proofs.AssembledOutput
import CompilerDriver.Proofs.DeclarationContext
import CompilerDriver.Proofs.LeadingContext
import CompilerDriver.Proofs.ArgumentOrder
import CompilerDriver.Proofs.DirectoryOrder
import CompilerDriver.Proofs.CommandSplitting
import CompilerDriver.Proofs.EquivalentFlags
