import Protonet.MachineInt
import Protonet.Lru
import Protonet.StepRun
import Protonet.DeadlineTable
import Protonet.Postcard
import Protonet.Record
import Protonet.RecordIdentity
import Protonet.Database
import Protonet.DatabaseBatch
import Protonet.Replay
import Protonet.ReplayFloor
import Protonet.Ingestion
import Protonet.ReplayMemory
import Protonet.Address
import Protonet.Rounding
import Protonet.RateLimit
import Protonet.Connections
import Protonet.Sync
import Protonet.IdentityReset
import Protonet.Queries
import Protonet.Worker
import Protonet.Swarm
import Protonet.SwarmHandlers
import Protonet.SwarmFrames
import Protonet.SyncTurns
import Protonet.SwarmDeeds
import Protonet.GossipTurns
import Protonet.Blocking
import Protonet.SyncPenalty
import Protonet.GossipPenalty
import Protonet.SwarmVerdicts
import Protonet.ConnectionTracking
import Protonet.ConnectionDiversity
import Protonet.TieBreak
import Protonet.Persistence
import Protonet.Paging
import Protonet.Listing
import Protonet.InventoryDigests
import Protonet.Exchange
import Protonet.Pursuit
import Protonet.RemoteRecords
import Protonet.SyncWorld
import Protonet.SyncProgress
import Protonet.SyncConvergence
import Protonet.GossipVerdicts
import Protonet.SyncBooks
import Protonet.SyncLedger
import Protonet.SyncLimits
import Protonet.SyncAwaited
import Protonet.PageWalk
import Protonet.SyncSession
import Protonet.Stock
import Protonet.SyncPlaces
import Protonet.SyncStall
import Protonet.ReplayGuard
import Protonet.Metering
import Protonet.RateWindows
import Protonet.ReplayBounds
import Protonet.InventoryComparison
import Protonet.InventoryListing
import Protonet.SyncWire
import Protonet.Quotas
import Protonet.IdentityCreation
import Protonet.RecordCreation
import Protonet.StoreIntegrity
import Protonet.RecordTimes
import Protonet.RecordLifetime
import Protonet.RecordPaths
import Protonet.SourceKeys
import Protonet.IdTraversal
import Protonet.Mutations
import Protonet.Transaction
import Protonet.SafetyStatus
import Protonet.BucketTables
import Protonet.DeniedIngestion
import Protonet.DeniedConnections
import Protonet.ExpiryTable
import Protonet.ExternalAddresses
import Protonet.FixedWindows
import Protonet.WindowGrants
import Protonet.Cidr
import Protonet.PublicAddress
import Protonet.StrBytes
import Protonet.HashText
import Protonet.Provenance
import Protonet.Agreement
import Protonet.SwarmEffects
import Protonet.Publication
import Protonet.RequestWire
import Protonet.SyncNetwork
import Protonet.ReplayCalls
import Protonet.Restart
import Protonet.RestoredFloor
import Protonet.Notices
import Protonet.AddressBook
import Protonet.WriterThreads
import Protonet.FileScan
import Protonet.Handshake
import Protonet.SafetyIntake
import Protonet.UniqueTable
import Protonet.StoreCatalogue
import Protonet.SortedPages
import Protonet.ManageSignatures
