import K2eg.Model.NodeConfiguration
import K2eg.Model.ChannelRepository
import K2eg.Foundation.Multimap
import K2eg.Foundation.Interleaving
import K2eg.Foundation.TaskPool
import K2eg.Foundation.Tally
import K2eg.Model.EpicsServiceManager
import K2eg.Model.SharedMonitor
import K2eg.Verification.Forwarding.Correctness
import K2eg.Verification.Configuration.Agreement
import K2eg.Verification.Channels.Service
import K2eg.Verification.SharedMonitor.Delivery
import K2eg.Model.SnapshotCommand
import K2eg.Model.SnapshotOpInfo
import K2eg.Model.IterationSynchronizer
import K2eg.Model.SubmissionTask
import K2eg.Model.SnapshotPipeline
import K2eg.Model.ContinuousSnapshotManager
import K2eg.Verification.Snapshot.Restart
import K2eg.Verification.Snapshot.Waits
import K2eg.Verification.Snapshot.Deadlock
import K2eg.Verification.Snapshot.Messages
import K2eg.Verification.Snapshot.Iterations
import K2eg.Verification.Snapshot.References
import K2eg.Verification.Snapshot.Promise
import K2eg.Verification.Snapshot.CommandReplies
import K2eg.Foundation.History
import K2eg.Model.MonitorChecker
import K2eg.Model.TopicHandlers
import K2eg.Verification.Monitors.Rows
import K2eg.Verification.Monitors.Steps
import K2eg.Verification.Monitors.GracePeriod
import K2eg.Verification.Monitors.Topics
import K2eg.Verification.Monitors.Handlers
import K2eg.Verification.Monitors.Recovery
import K2eg.Model.MonitorSystem
import K2eg.Verification.Monitors.Persisted
import K2eg.Verification.Monitors.System
import K2eg.Foundation.Msgpack
import K2eg.Model.PVData
import K2eg.Model.MsgpackEpicsConverter
import K2eg.Verification.Serialization.Encoding
import K2eg.Verification.Serialization.RoundTrip
import K2eg.Model.MsgpackCompactSerialization
import K2eg.Verification.Serialization.Compact
import K2eg.Foundation.Json
import K2eg.Model.MsgPackSerialization
import K2eg.Model.JsonSerialization
import K2eg.Verification.Serialization.JsonAgreement
import K2eg.Model.WorkerMessages
import K2eg.Verification.Serialization.WorkerMessages
import K2eg.Foundation.Ring
import K2eg.Model.TimeWindowEventBuffer
import K2eg.Model.BackTimedSnapshot
import K2eg.Verification.Snapshot.EventBuffer
import K2eg.Verification.Snapshot.FieldFilter
import K2eg.Verification.Snapshot.Lossless
import K2eg.Verification.Snapshot.Window
import K2eg.Model.PutOperation
import K2eg.Verification.Serialization.Put
import K2eg.Model.Scheduler
import K2eg.Verification.Scheduler.Places
import K2eg.Verification.Scheduler.Removal
import K2eg.Model.MapToCommand
import K2eg.Model.CMDController
import K2eg.Verification.Commands.Parsing
import K2eg.Verification.Commands.Offsets
import K2eg.Model.CommandWorkers
import K2eg.Verification.Commands.Replies
import K2eg.Model.SnapshotRounds
import K2eg.Verification.Snapshot.Spacing
import K2eg.Model.SnapshotCommandWorker
import K2eg.Verification.Snapshot.OneShot
import K2eg.Verification.Snapshot.Fallback
import K2eg.Verification.Structures.Fields
import K2eg.Model.RepeatingSnapshot
import K2eg.Verification.Snapshot.Closing
import K2eg.Verification.Snapshot.SilentPvs
import K2eg.Verification.Snapshot.LastEvents
import K2eg.Verification.Snapshot.FilteredMessages
import K2eg.Verification.Snapshot.Framing
import K2eg.Model.SnapshotTimestamps
import K2eg.Verification.Snapshot.Timestamps
import K2eg.Verification.Snapshot.EventDelivery
import K2eg.Model.ChannelSweep
import K2eg.Verification.Monitors.Sweeps
import K2eg.Model.ForcedUpdate
import K2eg.Verification.Operations.ForcedUpdates
import K2eg.Model.CombinedMonitor
import K2eg.Verification.Operations.Requests
import K2eg.Verification.Operations.Combined
import K2eg.Model.PVStructureMerger
import K2eg.Verification.Structures.Copying
import K2eg.Verification.Structures.Builder
import K2eg.Verification.Structures.Merger
import K2eg.Verification.Snapshot.BufferRefinement
import K2eg.Model.ConfigurationDocument
import K2eg.Verification.Configuration.Document
import K2eg.Verification.Snapshot.TimeWindow
import K2eg.Verification.Commands.MonitorRequests
import K2eg.Model.RDKafkaPublisher
import K2eg.Verification.Publishing.Push
import K2eg.Model.QueueMetadata
import K2eg.Verification.Monitors.Consumers
import K2eg.Foundation.Regex
import K2eg.Verification.Channels.PVNames
import K2eg.Model.ChannelProviders
import K2eg.Verification.Channels.Providers
import K2eg.Verification.Snapshot.GateAccounting
import K2eg.Foundation.Base64
import K2eg.Verification.Commands.PutValues
import K2eg.Foundation.CheckedInt
import K2eg.Foundation.Backoff
import K2eg.Model.ThrottlingManager
import K2eg.Model.ThrottledChannels
import K2eg.Verification.Throttling.Statistics
import K2eg.Verification.Throttling.Channels
import K2eg.Model.NodeController
import K2eg.Verification.Commands.Dispatch
import K2eg.Model.RDKafkaSubscriber
import K2eg.Model.CommandGateway
import K2eg.Verification.Commands.Gateway
import K2eg.Model.CommandService
import K2eg.Verification.Commands.Answers
import K2eg.Model.MonitorStartup
import K2eg.Verification.Monitors.Startup
import K2eg.Model.DeliveryReports
import K2eg.Verification.Publishing.Reports
import K2eg.Foundation.ReadyQueue
import K2eg.Verification.Scheduler.Executions
import K2eg.Verification.Scheduler.Fairness
import K2eg.Foundation.Slots
import K2eg.Model.ThreadPool
import K2eg.Verification.Pools.ThreadPool
import K2eg.Verification.Pools.Draining
import K2eg.Foundation.Journal
import K2eg.Model.ConsulNodeConfiguration
import K2eg.Verification.Configuration.Durability
import K2eg.Verification.Commands.Deadlines
import K2eg.Verification.Monitors.Reactivation
import K2eg.Model.MonitorCommandWorker
import K2eg.Verification.Monitors.Broadcasts
import K2eg.Verification.Monitors.Requests
import K2eg.Verification.Monitors.Registrations
