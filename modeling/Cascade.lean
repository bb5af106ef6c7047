import Cascade.File.Folder
import Cascade.Main
import Cascade.Proofs.Arena
import Cascade.Proofs.AstStore
import Cascade.Proofs.Completion
import Cascade.Proofs.Grammar
import Cascade.Proofs.Lexer
import Cascade.Proofs.ParsedSource
import Cascade.Proofs.Parser
import Cascade.Proofs.Postorder
import Cascade.Proofs.Program
import Cascade.Proofs.Reports
import Cascade.Proofs.Respelling
import Cascade.Proofs.ViablePrefix
import Cascade.Proofs.LineLexing
import Cascade.Proofs.CarriageReturns
import Cascade.Proofs.AppendOnly
import Cascade.Proofs.CutSource
import Cascade.Proofs.FailedParse
import Cascade.Machine
import Cascade.Proofs.MachineSteps
import Cascade.Proofs.MachineRuns
import Cascade.Proofs.MachineHalts
import Cascade.Proofs.SoundStore
import Cascade.Proofs.ParserCalls
import Cascade.Proofs.SpelledText
import Cascade.Proofs.PrintedTree
import Cascade.Proofs.FaithfulPrinter
import Cascade.Proofs.Layout
import Cascade.Proofs.NestingLimit
import Cascade.Proofs.NestingDepth
import Cascade.Proofs.SkippedLine
import Cascade.Proofs.SpannedText
import Cascade.Proofs.NodeSpans
import Cascade.Proofs.TreeHeight
import Cascade.Proofs.CommandRuns
import Cascade.Proofs.ForeignHandles
import Cascade.Proofs.FailedAppend
import Cascade.Proofs.Footprint
import Cascade.Proofs.StoreCalls
import Cascade.Proofs.TemplateFilling
import Cascade.Proofs.MalformedText
import Cascade.Proofs.ReportForms
import Cascade.Proofs.RenderedCarets
import Cascade.Proofs.VisitorWalk
import Cascade.Proofs.LineTable
import Cascade.Proofs.FieldRuns
import Cascade.Proofs.UnionLayout
import Cascade.Proofs.TextTokens
import Cascade.Proofs.SymbolNumbers
import Cascade.Scanner
import Cascade.Proofs.ScannerPlaces
import Cascade.Proofs.MachineEnds
import Cascade.Proofs.ParserProgress
