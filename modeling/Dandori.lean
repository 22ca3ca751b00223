import Dandori.KeyedTable
import Dandori.LabelledRun
import Dandori.Transaction
import Dandori.Codec
import Dandori.Schema
import Dandori.Session
import Dandori.IssueRepository
import Dandori.OutboxRepository
import Dandori.PartitionRepository
import Dandori.PartitionStarvation
import Dandori.Authentication
import Dandori.Publisher
import Dandori.Registry
import Dandori.Policy
import Dandori.IssueService
import Dandori.WorkerService
import Dandori.FailedPublish
import Dandori.BatchOutcomes
import Dandori.LeaseFencing
import Dandori.LeastItems
import Dandori.LeaseSelection
import Dandori.IdempotentCreate
import Dandori.RowSecurity
import Dandori.WorkspaceRepository
import Dandori.StoreIsolation
import Dandori.WorkerSystem
import Dandori.OutboxSafety
import Dandori.PartitionOverlap
import Dandori.EventFirst
import Dandori.PartitionExclusion
import Dandori.PartitionRelease
import Dandori.OutboxWellFormed
import Dandori.TenantReferences
import Dandori.EventDelivery
import Dandori.AllowedAlgorithms
import Dandori.ReadYourWrites
import Dandori.DispatchLeases
import Dandori.JsonText
import Dandori.Transports
import Dandori.CreateParity
import Dandori.McpSession
import Dandori.HexText
import Dandori.JsonWriter
import Dandori.LegacyFingerprint
import Dandori.TextLimits
import Dandori.RequestFingerprint
import Dandori.RegistryLookup
import Dandori.SchemaRouting
import Dandori.CircuitBreaker
import Dandori.BreakerOverlap
import Dandori.KeySelection
import Dandori.JwksRefresh
import Dandori.WorkerReport
import Dandori.ReportAgreement
import Dandori.LeaseProgress
import Dandori.PartitionSharding
import Dandori.ComponentRuns
import Dandori.DeliveryQueue
import Dandori.OutboxQueue
import Dandori.Recovery
import Dandori.IntegerText
import Dandori.Noninterference
import Dandori.WireTraffic
import Dandori.WorkerEnvironment
import Dandori.WorkerFleet
import Dandori.UndoneRun
import Dandori.SchemaScript
import Dandori.SchemaUndo
import Dandori.SchemaRows
import Dandori.SchemaShape
import Dandori.Migrations
import Dandori.MigrationRollback
import Dandori.MigratedSecurity
import Dandori.SchemaGrowth
import Dandori.PartitionBackfill
import Dandori.Worklist
import Dandori.ArchitectureGuard
import Dandori.EarlyReturn
import Dandori.SpecValidation
