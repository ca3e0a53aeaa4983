import JavaOutline.Attributes
import JavaOutline.Batch
import JavaOutline.Batch.Selection
import JavaOutline.Builder
import JavaOutline.Builder.Host
import JavaOutline.Builder.Scripted
import JavaOutline.Builder.Tree
import JavaOutline.Code
import JavaOutline.CommandLine
import JavaOutline.CompilationUnit
import JavaOutline.ConfigError
import JavaOutline.ConflictIndex
import JavaOutline.FileTree
import JavaOutline.FrontEnd
import JavaOutline.FrontEnd.Checks
import JavaOutline.FrontEnd.Reference
import JavaOutline.FrontEnd.Sources
import JavaOutline.Host
import JavaOutline.JsonValue
import JavaOutline.LanguageLevel
import JavaOutline.Log.Collector
import JavaOutline.Log.Event
import JavaOutline.Log.Journal
import JavaOutline.Log.Record
import JavaOutline.Main
import JavaOutline.Options
import JavaOutline.Outline
import JavaOutline.Outline.Classify
import JavaOutline.Outline.Declarations
import JavaOutline.Outline.Deferred
import JavaOutline.Outline.Listing
import JavaOutline.Outline.Parser
import JavaOutline.Outline.Phrase
import JavaOutline.Outline.Statements
import JavaOutline.Path
import JavaOutline.Preferences
import JavaOutline.Rebuild
import JavaOutline.Registry
import JavaOutline.Run
import JavaOutline.Session
import JavaOutline.Session.Verbosity
import JavaOutline.SourceFile
import JavaOutline.SourceFile.Prefetch
import JavaOutline.Span
import JavaOutline.Terminal
import JavaOutline.Text.Affix
import JavaOutline.Text.Blank
import JavaOutline.Text.Bytes
import JavaOutline.Text.Decimal
import JavaOutline.Text.Letter
import JavaOutline.Token
import JavaOutline.Token.Lexeme
import JavaOutline.Token.Range
import JavaOutline.Token.Scan
import JavaOutline.Toml
import JavaOutline.Toml.Document
import JavaOutline.Toml.Scalar
import JavaOutline.TypeIndex
import JavaOutline.UnitReport
import JavaOutline.Proofs.Stages
import JavaOutline.Proofs.BuilderCalls
import JavaOutline.Proofs.Rejection
import JavaOutline.Proofs.Selection
import JavaOutline.Proofs.Emission
import JavaOutline.Proofs.TreeBuilding
import JavaOutline.Proofs.SourceBatch
import JavaOutline.Proofs.TreeRun
import JavaOutline.Proofs.TokenOrder
import JavaOutline.Proofs.Reading
import JavaOutline.Proofs.NestedReading
import JavaOutline.Proofs.LockStep
import JavaOutline.Proofs.DietParse
import JavaOutline.Proofs.DietAgreement
import JavaOutline.Proofs.CallOrder
import JavaOutline.Proofs.SessionGrowth
import JavaOutline.Proofs.HostEvents
import JavaOutline.Proofs.TypeHeads
import JavaOutline.Proofs.BatchGrowth
import JavaOutline.Proofs.ParallelBatches
import JavaOutline.Proofs.Sights
import JavaOutline.Proofs.RepeatedSource
import JavaOutline.Proofs.RepeatedArgument
import JavaOutline.Proofs.ReadingAhead
import JavaOutline.Proofs.RepeatedRun
import JavaOutline.Proofs.HostHistory
import JavaOutline.Proofs.CompletionSteps
import JavaOutline.Proofs.CompletedOutline
import JavaOutline.Proofs.TidyBatch
import JavaOutline.Proofs.StraightBatch
import JavaOutline.Proofs.FileOrder
import JavaOutline.Proofs.AcceptedUnits
import JavaOutline.Proofs.SourcePlaces
import JavaOutline.Proofs.Tiling
import JavaOutline.Proofs.LexemeContext
import JavaOutline.Proofs.CommaContext
import JavaOutline.Proofs.Relexing
import JavaOutline.Proofs.Capturing
import JavaOutline.Proofs.CapturedExpressions
import JavaOutline.Proofs.OutlineSketch
import JavaOutline.Proofs.SilentReading
import JavaOutline.Proofs.SketchReading
import JavaOutline.Proofs.NumberedBatch
import JavaOutline.Proofs.RejectedUnits
import JavaOutline.Proofs.Movement
import JavaOutline.Proofs.NestedMovement
import JavaOutline.Proofs.SpanLayout
import JavaOutline.Proofs.SpanReading
import JavaOutline.Proofs.NestedSpans
import JavaOutline.Proofs.SlicedScan
import JavaOutline.Proofs.SoundSpans
import JavaOutline.Proofs.CheckedExpressions
import JavaOutline.Proofs.PositionReading
import JavaOutline.Proofs.PositionGrammar
import JavaOutline.Proofs.Mirroring
import JavaOutline.Proofs.MirroredTurns
import JavaOutline.Proofs.MirroredPhrases
import JavaOutline.Proofs.MirroredGrammar
import JavaOutline.Proofs.FaultlessReading
import JavaOutline.Proofs.VisitedSlots
import JavaOutline.Proofs.BatchClosure
import JavaOutline.Proofs.KnownImports
import JavaOutline.Proofs.SyntaxTrees
import JavaOutline.Proofs.CountedLevels
import JavaOutline.Proofs.RefusedLevels
import JavaOutline.Proofs.BracketPairs
import JavaOutline.Proofs.WholeCaptures
import JavaOutline.Proofs.ClauseHeads
import JavaOutline.Proofs.LoopHeaders
import JavaOutline.Proofs.PassedStretches
import JavaOutline.Proofs.PairedBrackets
import JavaOutline.Proofs.PairedReading
import JavaOutline.Proofs.PairedPhrases
import JavaOutline.Proofs.PairedGrammar
import JavaOutline.Proofs.KeptProblems
import JavaOutline.Proofs.NamesInScope
import JavaOutline.Proofs.Dispositions
import JavaOutline.Proofs.SeparatedTexts
import JavaOutline.Proofs.UnsplitTypes
import JavaOutline.Proofs.WrittenSignatures
import JavaOutline.Proofs.RepeatedMethods
import JavaOutline.Proofs.RegistryRoom
import JavaOutline.Proofs.WrittenLevels
import JavaOutline.Proofs.FlagScan
import JavaOutline.Proofs.FirstDeclarations
import JavaOutline.Proofs.FilledBodies
import JavaOutline.Proofs.PickedSlots
import JavaOutline.Proofs.WorkerRounds
