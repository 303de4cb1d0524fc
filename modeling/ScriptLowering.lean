import ScriptLowering.Command.Directory
import ScriptLowering.Listing.Document
import ScriptLowering.Main
import ScriptLowering.Source.Draft
import ScriptLowering.Proofs.VerifierChecks
import ScriptLowering.Proofs.Reachability
import ScriptLowering.Proofs.Dominance
import ScriptLowering.Proofs.DominatorLoops
import ScriptLowering.Proofs.Machine
import ScriptLowering.Proofs.MachineSafety
import ScriptLowering.Proofs.MachineProgress
import ScriptLowering.Proofs.LoweringWalk
import ScriptLowering.Proofs.EnsuredOutcomes
import ScriptLowering.Proofs.Place
import ScriptLowering.Proofs.RegularPlaces
import ScriptLowering.Proofs.FunctionGrowth
import ScriptLowering.Proofs.FunctionStructure
import ScriptLowering.Proofs.LoweringStages
import ScriptLowering.Proofs.Statements
import ScriptLowering.Proofs.Declarations
import ScriptLowering.Proofs.FinishedFunctions
import ScriptLowering.Proofs.ProgramEvaluation
import ScriptLowering.Proofs.ExpressionRuns
import ScriptLowering.Proofs.LeavingStatements
import ScriptLowering.Proofs.StatementRuns
import ScriptLowering.Proofs.DominancePaths
import ScriptLowering.Proofs.WellFormedFunctions
import ScriptLowering.Proofs.BuildingSteps
import ScriptLowering.Proofs.OrderlyFunctions
import ScriptLowering.Proofs.WorkableSessions
import ScriptLowering.Proofs.StraightLineCode
import ScriptLowering.Proofs.UnrefusedBuilding
import ScriptLowering.Proofs.LearningSteps
import ScriptLowering.Proofs.AcceptedReferences
import ScriptLowering.Proofs.ControlRuns
import ScriptLowering.Proofs.FunctionRuns
import ScriptLowering.Proofs.Globals
import ScriptLowering.Proofs.LinkedModules
import ScriptLowering.Proofs.Preservation
import ScriptLowering.Proofs.Promises
import ScriptLowering.Proofs.PlacePromises
import ScriptLowering.Proofs.PipelineRuns
import ScriptLowering.Proofs.PrintedDocuments
import ScriptLowering.Proofs.RecordDocuments
import ScriptLowering.Proofs.ProgramDocuments
import ScriptLowering.Proofs.ModuleDocuments
import ScriptLowering.Proofs.GrowingModules
import ScriptLowering.Proofs.OperandSupply
import ScriptLowering.Proofs.EarlyChecks
import ScriptLowering.Proofs.StatementEndings
import ScriptLowering.Proofs.ResolvedTraces
import ScriptLowering.Proofs.PendingPromises
import ScriptLowering.Proofs.StatementPromises
import ScriptLowering.Proofs.WellFormedLowering
import ScriptLowering.Proofs.PureBuilding
import ScriptLowering.Proofs.ReadySessions
import ScriptLowering.Proofs.FaultlessLowering
import ScriptLowering.Proofs.FaultlessStatements
import ScriptLowering.Proofs.AcceptedPrograms
import ScriptLowering.Proofs.RelabelledCode
import ScriptLowering.Proofs.LockstepSessions
import ScriptLowering.Proofs.LockstepRuns
import ScriptLowering.Proofs.VariableNames
import ScriptLowering.Proofs.ControlLedger
import ScriptLowering.Proofs.LoopExits
import ScriptLowering.Proofs.SessionLedger
import ScriptLowering.Proofs.StatementAccounts
import ScriptLowering.Proofs.LooseEnds
import ScriptLowering.Proofs.CursorLiveness
import ScriptLowering.Proofs.History
import ScriptLowering.Proofs.HistoryReplay
import ScriptLowering.Proofs.StepFootprints
import ScriptLowering.Proofs.HistoryStretches
import ScriptLowering.Proofs.StatementHistories
import ScriptLowering.Proofs.ProgramHistory
import ScriptLowering.Proofs.EdgeOrigins
import ScriptLowering.Proofs.LoopJumps
import ScriptLowering.Proofs.StringLiterals
import ScriptLowering.Proofs.VerifierOversights
import ScriptLowering.Proofs.CompleteBlocks
import ScriptLowering.Proofs.UndisturbedFunctions
import ScriptLowering.Proofs.CheckedHistory
import ScriptLowering.Proofs.RegularFunctions
import ScriptLowering.Proofs.LaidOutStores
import ScriptLowering.Proofs.GlobalStores
import ScriptLowering.Proofs.LoweringMarks
import ScriptLowering.Proofs.RepeatedFunctions
import ScriptLowering.Proofs.ReopenedFunctions
import ScriptLowering.Proofs.LoweredOnce
import ScriptLowering.Proofs.DataNumbers
import ScriptLowering.Proofs.IndependentLowering
import ScriptLowering.Proofs.ExchangedItems
import ScriptLowering.Proofs.QuotedBytes
import ScriptLowering.Proofs.ColoredListings
import ScriptLowering.Proofs.EdgeCounts
import ScriptLowering.Proofs.ItemOrder
import ScriptLowering.Proofs.ExpressionTypes
import ScriptLowering.Proofs.AcyclicPrograms
import ScriptLowering.Proofs.ShadowedSteps
import ScriptLowering.Proofs.DeadEnds
import ScriptLowering.Proofs.DeadStretches
import ScriptLowering.Proofs.ShadowedExpressions
import ScriptLowering.Proofs.DeadTails
import ScriptLowering.Proofs.RenumberedFunctions
import ScriptLowering.Proofs.UnreachableStatements
