import RealTimeTrading.Concurrency.Interleaving
import RealTimeTrading.ControlPlane.Plane
import RealTimeTrading.ControlPlane.StoreTheorems
import RealTimeTrading.Concurrency.Sequential
import RealTimeTrading.ControlPlane.BingX.Client
import RealTimeTrading.ControlPlane.FillSums
import RealTimeTrading.ControlPlane.Idempotency
import RealTimeTrading.ControlPlane.Lifecycle
import RealTimeTrading.ControlPlane.ReduceOnly
import RealTimeTrading.ControlPlane.FillDelivery
import RealTimeTrading.ControlPlane.FillIdempotence
import RealTimeTrading.ControlPlane.BingX.BootSteps
import RealTimeTrading.ControlPlane.BingX.Convergence
import RealTimeTrading.Rtts.Accounting.CashFlow
import RealTimeTrading.Rtts.Accounting.Latency
import RealTimeTrading.Rtts.Execution.QueueEngine
import RealTimeTrading.Rtts.ExecutionController
import RealTimeTrading.Rtts.ExecutionSmart
import RealTimeTrading.Rtts.ForcedExit
import RealTimeTrading.Rtts.ControllerTheorems
import RealTimeTrading.Wire.DecisionGate
import RealTimeTrading.ControlPlane.Alone
import RealTimeTrading.ControlPlane.Atomicity
import RealTimeTrading.ControlPlane.Duplicate
import RealTimeTrading.ControlPlane.Paper
import RealTimeTrading.ControlPlane.PositionLimit
import RealTimeTrading.ControlPlane.SelfTrade
import RealTimeTrading.ControlPlane.Risk.Circuit
import RealTimeTrading.ControlPlane.Recovery
import RealTimeTrading.Rtts.Accounting.ColdStart
import RealTimeTrading.Rtts.FreshOrder
import RealTimeTrading.Concurrency.Observer
import RealTimeTrading.ControlPlane.Announced
import RealTimeTrading.Rtts.Backpressure
import RealTimeTrading.Rtts.Naming
import RealTimeTrading.Wire.ExecutionFeed
import RealTimeTrading.Wire.OrderNames
import RealTimeTrading.ControlPlane.BingX.ReportedFills
import RealTimeTrading.Rtts.Accounting.CostFlow
import RealTimeTrading.Rtts.Accounting.NetQuantity
import RealTimeTrading.Rtts.Accounting.SymbolIsolation
import RealTimeTrading.Rtts.Accounting.UnrealizedTotal
import RealTimeTrading.Rtts.ControllerRuns
import RealTimeTrading.Rtts.KeyCollision
import RealTimeTrading.Rtts.MetaThresholds
import RealTimeTrading.Rtts.Routing
import RealTimeTrading.Rtts.Scoring.AdaptiveEngine
import RealTimeTrading.Rtts.Scoring.Lockout
import RealTimeTrading.Wire.NetPosition
import RealTimeTrading.ControlPlane.BingX.Verdict
import RealTimeTrading.ControlPlane.PaperSession
import RealTimeTrading.ControlPlane.Reported
import RealTimeTrading.Data.Json
import RealTimeTrading.Rtts.EntryCap
import RealTimeTrading.Wire.ExecutionJson
import RealTimeTrading.Wire.FillViews
import RealTimeTrading.Wire.OrderType
import RealTimeTrading.Wire.PaperUpdates
import RealTimeTrading.Concurrency.Registers
import RealTimeTrading.ControlPlane.Risk.PerSymbol
import RealTimeTrading.ControlPlane.Risk.Stress
import RealTimeTrading.Rtts.ActionBudget
import RealTimeTrading.Rtts.ExitKeys
import RealTimeTrading.Rtts.FillProgress
import RealTimeTrading.Rtts.NoFlip
import RealTimeTrading.Rtts.TopOfBook
import RealTimeTrading.Data.Ecdf
import RealTimeTrading.Rtts.Accounting.KsStatistic
import RealTimeTrading.Rtts.Accounting.SnapshotAgreement
import RealTimeTrading.Rtts.Scoring.ReversalEngine
import RealTimeTrading.Data.Ends
import RealTimeTrading.Rtts.Market.BookCrossing
import RealTimeTrading.Rtts.Scoring.EntryExclusive
import RealTimeTrading.Rtts.Scoring.LocalHigh
import RealTimeTrading.Data.Averages
import RealTimeTrading.Data.Buckets
import RealTimeTrading.Data.Moments
import RealTimeTrading.Data.Windows
import RealTimeTrading.ExecutionLearning.Features
import RealTimeTrading.ExecutionLearning.Columns
import RealTimeTrading.ExecutionLearning.Floating.Features
import RealTimeTrading.ExecutionLearning.Floating.Scores
import RealTimeTrading.ExecutionLearning.Floating.Idempotence
import RealTimeTrading.Rtts.Accounting.Quality
import RealTimeTrading.Rtts.Accounting.StreamingMoments
import RealTimeTrading.Rtts.ExecutionTruth
import RealTimeTrading.Rtts.Market.ChangeHistory
import RealTimeTrading.Rtts.Market.FeatureIndependence
import RealTimeTrading.Rtts.Market.TapeWindow
import RealTimeTrading.Rtts.Market.TickDepth
import RealTimeTrading.Rtts.Markouts
import RealTimeTrading.Rtts.MovingAverages
import RealTimeTrading.Rtts.SlippageValue
import RealTimeTrading.Concurrency.Channels
import RealTimeTrading.Concurrency.Contracts
import RealTimeTrading.Concurrency.Drainage
import RealTimeTrading.Concurrency.Relays
import RealTimeTrading.ControlPlane.Hub
import RealTimeTrading.Rtts.Ingestion
import RealTimeTrading.Rtts.Pipeline
import RealTimeTrading.Rtts.PipelineColdStart
import RealTimeTrading.Rtts.PipelineFlow
import RealTimeTrading.Rtts.PipelineMarket
import RealTimeTrading.Rtts.PipelineOrders
import RealTimeTrading.Data.Documents
import RealTimeTrading.Rtts.PipelineFills
import RealTimeTrading.Wire.ModelWeights
import RealTimeTrading.ClosedLoop
import RealTimeTrading.ControlPlane.Gatekeeping
import RealTimeTrading.Rtts.PipelineLearning
import RealTimeTrading.Deployment
import RealTimeTrading.ExecutionLearning.Policy
import RealTimeTrading.Data.Binary64
import RealTimeTrading.Rtts.Floating.ReversalWindow
import RealTimeTrading.Rtts.Floating.TriggerWindow
import RealTimeTrading.Rtts.Floating.EdgeValidation
import RealTimeTrading.Rtts.Floating.SizeFactor
import RealTimeTrading.Rtts.Floating.ValidatorRuns
import RealTimeTrading.Rtts.Floating.NegativeCapture
import RealTimeTrading.Rtts.Floating.Lockout
import RealTimeTrading.Data.CursorMerge
import RealTimeTrading.Rtts.Floating.Validation
