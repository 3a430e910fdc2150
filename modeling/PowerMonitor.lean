import PowerMonitor.Lib.Binary
import PowerMonitor.Lib.Program
import PowerMonitor.Lib.Scan
import PowerMonitor.Lib.Reader
import PowerMonitor.Lib.Lines
import PowerMonitor.Lib.Json
import PowerMonitor.Lib.Walk
import PowerMonitor.Security.Crypto
import PowerMonitor.Security.AuthPolicy
import PowerMonitor.Security.Replay
import PowerMonitor.Security.RequestAuthenticator
import PowerMonitor.Config.AtomicConfigStore
import PowerMonitor.Config.CommitAtomic
import PowerMonitor.Config.Rollback
import PowerMonitor.Config.Cursors
import PowerMonitor.Reset.Policy
import PowerMonitor.Reset.Codec
import PowerMonitor.Reset.Operation
import PowerMonitor.Reset.RecordStore
import PowerMonitor.Storage.RecordFormat
import PowerMonitor.Storage.Reading
import PowerMonitor.Storage.SyncCoverage
import PowerMonitor.Storage.Media
import PowerMonitor.Storage.Segment
import PowerMonitor.Storage.ReadPage
import PowerMonitor.Storage.PageSpec
import PowerMonitor.Storage.SdStorage
import PowerMonitor.Storage.Intact
import PowerMonitor.Storage.Unavailable
import PowerMonitor.Storage.Frames
import PowerMonitor.Storage.Recovery
import PowerMonitor.Storage.LongLines
import PowerMonitor.Storage.CorruptSegments
import PowerMonitor.Storage.Layout
import PowerMonitor.Storage.CalmOperations
import PowerMonitor.Storage.Counting
import PowerMonitor.Storage.CoverageRanges
import PowerMonitor.Storage.Reconciliation
import PowerMonitor.Storage.Runs
import PowerMonitor.Storage.Acknowledgement
import PowerMonitor.Storage.Standing
import PowerMonitor.Storage.Faults
import PowerMonitor.Storage.FaultyRecovery
import PowerMonitor.Storage.FaultyOperations
import PowerMonitor.Storage.Sequences
import PowerMonitor.Storage.SequenceJournal
import PowerMonitor.Lib.Steady
import PowerMonitor.Lib.Observe
import PowerMonitor.Storage.Cleanup
import PowerMonitor.Storage.CleanupRecovery
import PowerMonitor.Storage.CleanupCrash
import PowerMonitor.Storage.Trash
import PowerMonitor.Storage.Events
import PowerMonitor.Storage.EventAcks
import PowerMonitor.Storage.CardRemoval
import PowerMonitor.Lib.Component
import PowerMonitor.Config.Enrollment
import PowerMonitor.Config.Reenrollment
import PowerMonitor.Storage.Manifest
import PowerMonitor.Reset.Gates
import PowerMonitor.Lib.Ieee
import PowerMonitor.Reset.DrainJournal
import PowerMonitor.Storage.HealthMirror
import PowerMonitor.Reset.Admission
import PowerMonitor.Storage.TornTail
import PowerMonitor.Storage.EventLines
import PowerMonitor.Storage.FastRecovery
import PowerMonitor.Storage.IndexSeek
import PowerMonitor.Reset.Generations
import PowerMonitor.Lib.Canonical
import PowerMonitor.Reset.RoundTrip
import PowerMonitor.Reset.Capacity
import PowerMonitor.Lib.Checked
import PowerMonitor.Lib.JsonSize
import PowerMonitor.Reset.CleanupJournal
import PowerMonitor.Storage.ResetCleanup
import PowerMonitor.Storage.RebuildIndexes
import PowerMonitor.Storage.Tidy
import PowerMonitor.Storage.Writers
import PowerMonitor.Lib.Odometer
import PowerMonitor.Core.Aggregation
import PowerMonitor.Core.Adjoining
import PowerMonitor.Config.ProvisioningTransaction
import PowerMonitor.Config.Provisioning
import PowerMonitor.Config.ProvisioningAtomic
import PowerMonitor.Storage.ManifestIdentity
import PowerMonitor.Reset.EventJournal
import PowerMonitor.Reset.SideJournals
import PowerMonitor.Core.AggregationTask
import PowerMonitor.Core.GateLoss
import PowerMonitor.Lib.Rely
import PowerMonitor.Core.Quiescence
import PowerMonitor.Reset.Preparation
import PowerMonitor.Reset.Abandonment
import PowerMonitor.Reset.Binding
import PowerMonitor.Lib.Shortlist
import PowerMonitor.Storage.HistoryPages
import PowerMonitor.Network.ClockService
import PowerMonitor.Lib.Memory
import PowerMonitor.Ota.ManifestV2
import PowerMonitor.Ota.Recovery
import PowerMonitor.Ota.OtaService
import PowerMonitor.Ota.Checkpoints
import PowerMonitor.Ota.Attempts
import PowerMonitor.Ota.PostBoot
import PowerMonitor.Storage.Retention
import PowerMonitor.Lib.Delimited
import PowerMonitor.Security.CanonicalTarget
import PowerMonitor.Ota.CanonicalManifest
import PowerMonitor.Lib.Decimal
import PowerMonitor.Ota.Semver
import PowerMonitor.Ota.Precedence
import PowerMonitor.Lib.JsonGrammar
import PowerMonitor.Ota.ManifestKeys
import PowerMonitor.Security.Sessions
import PowerMonitor.Security.SessionTable
import PowerMonitor.Security.SessionHistory
import PowerMonitor.Network.ServerAddress
import PowerMonitor.Reset.Requests
import PowerMonitor.Lib.Repeated
import PowerMonitor.Reset.EventCodec
import PowerMonitor.Core.MemoryPressurePolicy
import PowerMonitor.Ota.ProtocolMarker
import PowerMonitor.Lib.Burst
import PowerMonitor.Meter.PzemProtocol
import PowerMonitor.Storage.BurstErrors
import PowerMonitor.Lib.Utf8
import PowerMonitor.Lib.JsonString
import PowerMonitor.Api.BoundedJsonWriter
import PowerMonitor.Api.Cookies
import PowerMonitor.Diagnostics.Redaction
import PowerMonitor.Storage.CanonicalIndex
import PowerMonitor.Storage.RebuildTransaction
import PowerMonitor.Lib.Handover
import PowerMonitor.Lib.Tally
import PowerMonitor.Storage.MessagePool
import PowerMonitor.Storage.WriteQueue
import PowerMonitor.Lib.Delivery
import PowerMonitor.Network.ReadingServer
import PowerMonitor.Network.ReadingSync
import PowerMonitor.Network.ReadingProgress
import PowerMonitor.Lib.Ticks
import PowerMonitor.Network.SyncSchedule
import PowerMonitor.Security.ConstantTime
import PowerMonitor.Ota.Download
import PowerMonitor.Ota.DownloadImage
import PowerMonitor.Ota.DownloadProgress
