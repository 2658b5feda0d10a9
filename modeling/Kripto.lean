import Kripto.Execution.StaleMark
import Kripto.Execution.LegalStatus
import Kripto.Execution.Isolation
import Kripto.Execution.Phantom
import Kripto.Promotion.Failure
import Kripto.Promotion.Crash
import Kripto.Risk.Envelope
import Kripto.Execution.ReservationAgreement
import Kripto.Execution.ReservationRace
import Kripto.Execution.LiveCapital
import Kripto.Execution.Fence
import Kripto.Stream.OwnOrders
import Kripto.Campaign.Unattested
import Kripto.Stream.PublicStream
import Kripto.Stream.Redelivery
import Kripto.Stream.AccountSnapshots
import Kripto.Data.Coordinator
import Kripto.Data.Replay
import Kripto.Campaign.RefusedRestore
import Kripto.Campaign.AllOrNothing
import Kripto.Campaign.Writers
import Kripto.Database.Accounting
import Kripto.Database.IdempotentConsumer
import Kripto.Audit.Store
import Kripto.Release.LedgerHead
import Kripto.Core.ReplayCheckpoint
import Kripto.Audit.Checkpoint
import Kripto.Core.AuditChain
import Kripto.Risk.Uncertainty
import Kripto.Deploy.BothOrNone
import Kripto.Deploy.CrossRecovery
import Kripto.Deploy.RollbackAtomic
import Kripto.Deploy.MigrationReceipts
import Kripto.Deploy.LockExclusion
import Kripto.Auth.OneUse
import Kripto.Auth.Enrollment
import Kripto.Monitoring.Acknowledgement
import Kripto.Promotion.Importable
import Kripto.Backtest.Generalisation
import Kripto.Execution.SleeveConservation
import Kripto.Execution.Ownership
import Kripto.Paper.Accounts
import Kripto.Risk.Drift
import Kripto.Monitoring.LiveConfirmation
import Kripto.Research.TrialLedger
import Kripto.Data.PointInTime
import Kripto.Audit.TornAppend
import Kripto.Core.Backpressure
import Kripto.Data.Repainting
import Kripto.Execution.AccountBoundary
import Kripto.Risk.ConfigSafety
import Kripto.Risk.Sizing
import Kripto.Strategy.Direction
import Kripto.Execution.Identity
import Kripto.Execution.ReduceOnly
import Kripto.Risk.AllocationCaps
import Kripto.Execution.SentLimits
import Kripto.Data.RateLimit
import Kripto.Risk.Hysteresis
import Kripto.Risk.Circuit
import Kripto.Strategy.Levels
import Kripto.Backtest.Intrabar
import Kripto.Strategy.Ensemble
import Kripto.Risk.PortfolioOptimizer
import Kripto.Risk.Clusters
import Kripto.Research.TimeValidation
import Kripto.Deploy.MigrationGraph
import Kripto.Universe.AssetMetadata
import Kripto.Backtest.SymbolsTraded
import Kripto.Setup.Wizard
import Kripto.Recovery.RuntimeCheckpoint
import Kripto.Core.Migrations
import Kripto.Auth.RecoveryGrants
import Kripto.Research.NewsSafety
import Kripto.Risk.Ladders
