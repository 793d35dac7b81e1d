import Neoethos.AccountLossLedger
import Neoethos.AcquisitionAuthority
import Neoethos.AcquisitionCells
import Neoethos.AcquisitionChain
import Neoethos.AcquisitionPlan
import Neoethos.AcquisitionStore
import Neoethos.Admission
import Neoethos.AdmissionDesk
import Neoethos.AdmissionLedger
import Neoethos.AdmissionProtocol
import Neoethos.AdmissionRuns
import Neoethos.AdmissionSteps
import Neoethos.ArchiveBest
import Neoethos.ArchiveIndexes
import Neoethos.ArchiveTop
import Neoethos.BrokerPartition
import Neoethos.BrokerPermits
import Neoethos.BrokerQueue
import Neoethos.BrokerSlots
import Neoethos.BrokerState
import Neoethos.BrokerStep
import Neoethos.BrokerWakeup
import Neoethos.CancelInvariant
import Neoethos.CancelStep
import Neoethos.CancelSystem
import Neoethos.CancelWakeup
import Neoethos.CaptureAdmissible
import Neoethos.CaptureCompleteness
import Neoethos.CaptureGrouping
import Neoethos.CaptureLoop
import Neoethos.CapturePages
import Neoethos.CaptureSession
import Neoethos.CaptureTicks
import Neoethos.ClientMessage
import Neoethos.Combinations
import Neoethos.Cscv
import Neoethos.CscvEquality
import Neoethos.CscvRefines
import Neoethos.CscvReport
import Neoethos.CscvSplits
import Neoethos.CscvSweep
import Neoethos.DatasetReceipt
import Neoethos.DealAccumulation
import Neoethos.DealEconomics
import Neoethos.DeflatedSharpe
import Neoethos.Delimited
import Neoethos.DeskHistory
import Neoethos.Drawdown
import Neoethos.EngineExits
import Neoethos.EngineMoney
import Neoethos.EngineMoneyAtomic
import Neoethos.EngineMoneyConservation
import Neoethos.EntryAuthority
import Neoethos.EntryBlocked
import Neoethos.EntryCap
import Neoethos.EntryCounter
import Neoethos.EntryEffects
import Neoethos.EntryIntent
import Neoethos.EntryOrderIds
import Neoethos.EntryWorld
import Neoethos.Evaluator
import Neoethos.EvaluatorAccounts
import Neoethos.EvaluatorCausality
import Neoethos.EvaluatorDrawdown
import Neoethos.EvaluatorMetrics
import Neoethos.EvaluatorPrefix
import Neoethos.EvaluatorRules
import Neoethos.EvaluatorSteps
import Neoethos.EvaluatorWatch
import Neoethos.FinalGate
import Neoethos.Evolution
import Neoethos.ExactFloats
import Neoethos.ExitParity
import Neoethos.ExitParityRun
import Neoethos.Fallible
import Neoethos.FeatureAlignment
import Neoethos.FeatureAlignmentMeaning
import Neoethos.FeatureCausality
import Neoethos.FeatureDense
import Neoethos.FeatureDenseCells
import Neoethos.FeatureFitReplay
import Neoethos.FeatureFitted
import Neoethos.FeatureFrame
import Neoethos.FeatureIndex
import Neoethos.FeatureIndexMeaning
import Neoethos.FeatureMeaning
import Neoethos.FeatureSelections
import Neoethos.FeatureSteps
import Neoethos.FeatureTable
import Neoethos.FeatureViews
import Neoethos.FetchHistory
import Neoethos.FetchRegistry
import Neoethos.FetchSafety
import Neoethos.FirstOfKey
import Neoethos.FloatOps
import Neoethos.I64
import Neoethos.JournalReconcile
import Neoethos.JournalReconcilePnl
import Neoethos.JournalRecovery
import Neoethos.JournalStore
import Neoethos.JournalStoreWrites
import Neoethos.LaneAdmissible
import Neoethos.LaneBars
import Neoethos.LaneDriver
import Neoethos.LanePlans
import Neoethos.LaneRecords
import Neoethos.LaneRefinement
import Neoethos.LaneSchedule
import Neoethos.ListIndex
import Neoethos.LittleEndian
import Neoethos.Machine
import Neoethos.MockExecution
import Neoethos.Normalization
import Neoethos.NormalizationExact
import Neoethos.NormalizationFit
import Neoethos.Pagination
import Neoethos.PartitionPoint
import Neoethos.PartitionTiling
import Neoethos.PositionManager
import Neoethos.PosteriorEvidence
import Neoethos.ProfitableArchive
import Neoethos.ProposerSession
import Neoethos.ProposerSweep
import Neoethos.PurgedCv
import Neoethos.PurgedCvFit
import Neoethos.QuoteCoverage
import Neoethos.QuoteIngressFilter
import Neoethos.Redeflation
import Neoethos.ReplayAccepted
import Neoethos.ReplayCausality
import Neoethos.ReplayContract
import Neoethos.ReplayCoverage
import Neoethos.ReplayEntry
import Neoethos.ReplayExit
import Neoethos.ReplayExtrema
import Neoethos.ReplayFill
import Neoethos.ReplayKernel
import Neoethos.ReplayLane
import Neoethos.ReplayMirror
import Neoethos.ReplayOutcome
import Neoethos.ReplayRecords
import Neoethos.ReplaySearch
import Neoethos.ReplaySelect
import Neoethos.ReplayTrailing
import Neoethos.RequestDesk
import Neoethos.RiskCheckpoint
import Neoethos.RiskLatch
import Neoethos.RiskManager
import Neoethos.RiskPolicy
import Neoethos.RiskSizing
import Neoethos.RunnerBlocks
import Neoethos.SampleMoments
import Neoethos.Session
import Neoethos.SessionReopen
import Neoethos.SessionTouch
import Neoethos.ShuffleNull
import Neoethos.SimulatedTrades
import Neoethos.TickDecoders
import Neoethos.TickDelta
import Neoethos.Tiling
import Neoethos.TrendbarHonest
import Neoethos.TrendbarPage
import Neoethos.TrendbarRows
import Neoethos.TrendbarTraversal
import Neoethos.TrialMatrix
import Neoethos.TrialMatrixFormat
import Neoethos.TrialRetention
import Neoethos.TrialRoundTrip
import Neoethos.TrialWriterFailures
import Neoethos.Walkforward
import Neoethos.WalkforwardParity
import Neoethos.WalkforwardRisk
import Neoethos.WalkforwardSplits
import Neoethos.WalkforwardWindow
