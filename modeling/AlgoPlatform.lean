import AlgoPlatform.Basis.Calendar
import AlgoPlatform.Basis.Cluster
import AlgoPlatform.Basis.Dict
import AlgoPlatform.Basis.Joined
import AlgoPlatform.Basis.Journal
import AlgoPlatform.Basis.Latch
import AlgoPlatform.Basis.Memo
import AlgoPlatform.Basis.Optimistic
import AlgoPlatform.Basis.Pool
import AlgoPlatform.Basis.Prog
import AlgoPlatform.Basis.Promise
import AlgoPlatform.Basis.Quota
import AlgoPlatform.Basis.Rely
import AlgoPlatform.Basis.Savepoint
import AlgoPlatform.Basis.Since
import AlgoPlatform.Basis.Sql
import AlgoPlatform.Basis.Step
import AlgoPlatform.Basis.Store
import AlgoPlatform.Basis.Tally
import AlgoPlatform.Basis.Under
import AlgoPlatform.Basis.Window
import AlgoPlatform.Basis.Zoom
import AlgoPlatform.Model.AtmWindow
import AlgoPlatform.Model.Bookkeeping
import AlgoPlatform.Model.Broker
import AlgoPlatform.Model.Collector
import AlgoPlatform.Model.Container
import AlgoPlatform.Model.Context
import AlgoPlatform.Model.DailyLoss
import AlgoPlatform.Model.Dates
import AlgoPlatform.Model.Db
import AlgoPlatform.Model.EntryLogic
import AlgoPlatform.Model.Enums
import AlgoPlatform.Model.ExitLogic
import AlgoPlatform.Model.Expiry
import AlgoPlatform.Model.GetOrCreate
import AlgoPlatform.Model.InstanceAdmin
import AlgoPlatform.Model.InstrumentCaches
import AlgoPlatform.Model.InstrumentDump
import AlgoPlatform.Model.KillSwitch
import AlgoPlatform.Model.KiteMapper
import AlgoPlatform.Model.MarketData
import AlgoPlatform.Model.MarketDesk
import AlgoPlatform.Model.Monitor
import AlgoPlatform.Model.OrderUpdates
import AlgoPlatform.Model.PlatformScheduler
import AlgoPlatform.Model.Premium
import AlgoPlatform.Model.RateLimiter
import AlgoPlatform.Model.Reconciliation
import AlgoPlatform.Model.Repositories
import AlgoPlatform.Model.Risk
import AlgoPlatform.Model.RunnerLifecycle
import AlgoPlatform.Model.Runs
import AlgoPlatform.Model.SimulationBroker
import AlgoPlatform.Model.StartUp
import AlgoPlatform.Model.StateMachine
import AlgoPlatform.Model.Strategy
import AlgoPlatform.Model.StrikeSelector
import AlgoPlatform.Model.TickStream
import AlgoPlatform.Model.TickWriter
import AlgoPlatform.Model.TradeHistory
import AlgoPlatform.Model.TradeReport
import AlgoPlatform.Model.World
import AlgoPlatform.Proofs.Announcements
import AlgoPlatform.Proofs.AtmWindow
import AlgoPlatform.Proofs.Beside
import AlgoPlatform.Proofs.Closing
import AlgoPlatform.Proofs.Collector
import AlgoPlatform.Proofs.Commits
import AlgoPlatform.Proofs.Container
import AlgoPlatform.Proofs.ContainerRuns
import AlgoPlatform.Proofs.ContractRoll
import AlgoPlatform.Proofs.DailyLoss
import AlgoPlatform.Proofs.Endings
import AlgoPlatform.Proofs.EntryCap
import AlgoPlatform.Proofs.EntryContracts
import AlgoPlatform.Proofs.EntryLeg
import AlgoPlatform.Proofs.Environment
import AlgoPlatform.Proofs.Exceptions
import AlgoPlatform.Proofs.ExitCompletes
import AlgoPlatform.Proofs.ExitOnce
import AlgoPlatform.Proofs.Expiry
import AlgoPlatform.Proofs.Finality
import AlgoPlatform.Proofs.ForeignRows
import AlgoPlatform.Proofs.Frames
import AlgoPlatform.Proofs.GetOrCreate
import AlgoPlatform.Proofs.Idempotence
import AlgoPlatform.Proofs.Instances
import AlgoPlatform.Proofs.InstrumentDump
import AlgoPlatform.Proofs.IntentRecord
import AlgoPlatform.Proofs.Intents
import AlgoPlatform.Proofs.Isolation
import AlgoPlatform.Proofs.Jobs
import AlgoPlatform.Proofs.KillSwitch
import AlgoPlatform.Proofs.KillSwitchRace
import AlgoPlatform.Proofs.Ledger
import AlgoPlatform.Proofs.LedgerRuns
import AlgoPlatform.Proofs.LegCloses
import AlgoPlatform.Proofs.Monitor
import AlgoPlatform.Proofs.MonitorFreshness
import AlgoPlatform.Proofs.MonitorRuns
import AlgoPlatform.Proofs.NakedLeg
import AlgoPlatform.Proofs.Obliging
import AlgoPlatform.Proofs.OpenExposure
import AlgoPlatform.Proofs.OrderConvergence
import AlgoPlatform.Proofs.OrderRouting
import AlgoPlatform.Proofs.OrderRow
import AlgoPlatform.Proofs.Orphans
import AlgoPlatform.Proofs.Pass
import AlgoPlatform.Proofs.PlatformScheduler
import AlgoPlatform.Proofs.PriceGate
import AlgoPlatform.Proofs.Prices
import AlgoPlatform.Proofs.Quarantine
import AlgoPlatform.Proofs.RateLimiter
import AlgoPlatform.Proofs.RealizedLoss
import AlgoPlatform.Proofs.Reconcile
import AlgoPlatform.Proofs.Recovery
import AlgoPlatform.Proofs.Resolution
import AlgoPlatform.Proofs.RowOrigins
import AlgoPlatform.Proofs.RowUpdate
import AlgoPlatform.Proofs.RunnerLifecycle
import AlgoPlatform.Proofs.Schema
import AlgoPlatform.Proofs.Settlement
import AlgoPlatform.Proofs.SimulatedErrors
import AlgoPlatform.Proofs.SimulatedLedger
import AlgoPlatform.Proofs.SimulatedPnl
import AlgoPlatform.Proofs.StateGraph
import AlgoPlatform.Proofs.StrikeSelector
import AlgoPlatform.Proofs.Subscriptions
import AlgoPlatform.Proofs.Tags
import AlgoPlatform.Proofs.TickWriter
import AlgoPlatform.Proofs.TradeHistory
import AlgoPlatform.Proofs.TradeReport
import AlgoPlatform.Proofs.Turns
import AlgoPlatform.Proofs.Unwind
import AlgoPlatform.Proofs.WriteAhead
