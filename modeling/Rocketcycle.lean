import Rocketcycle.Apecs.Advance
import Rocketcycle.Apecs.Asking
import Rocketcycle.Apecs.Children
import Rocketcycle.Apecs.CommittedOffset
import Rocketcycle.Apecs.Completion
import Rocketcycle.Apecs.Consumer
import Rocketcycle.Apecs.Continuation
import Rocketcycle.Apecs.Cursor
import Rocketcycle.Apecs.Faults
import Rocketcycle.Apecs.InsertSteps
import Rocketcycle.Apecs.Marshalled
import Rocketcycle.Apecs.Offsets
import Rocketcycle.Apecs.OneOutcome
import Rocketcycle.Apecs.Produce
import Rocketcycle.Apecs.Reporting
import Rocketcycle.Apecs.Runner
import Rocketcycle.Apecs.Sending
import Rocketcycle.Apecs.TxnLog
import Rocketcycle.Concern.Answered
import Rocketcycle.Concern.Applied
import Rocketcycle.Concern.Crud
import Rocketcycle.Concern.CrudEffects
import Rocketcycle.Concern.Decode
import Rocketcycle.Concern.Logic
import Rocketcycle.Concern.LogicEffects
import Rocketcycle.Concern.Readable
import Rocketcycle.Concern.Related
import Rocketcycle.Concern.Schema
import Rocketcycle.Concern.StoreWrites
import Rocketcycle.Gen.Catalog
import Rocketcycle.Gen.RelatedMethods
import Rocketcycle.Gen.Routing
import Rocketcycle.Gen.Template
import Rocketcycle.Jsonutils.Accepted
import Rocketcycle.Jsonutils.Grammar
import Rocketcycle.Jsonutils.Inverse
import Rocketcycle.Jsonutils.Json
import Rocketcycle.Jsonutils.OrderedMap
import Rocketcycle.Jsonutils.RawKeys
import Rocketcycle.Jsonutils.Reader
import Rocketcycle.Jsonutils.Reading
import Rocketcycle.Jsonutils.Rfc8259
import Rocketcycle.Jsonutils.RoundTrip
import Rocketcycle.Jsonutils.StringLiterals
import Rocketcycle.Jsonutils.Tokens
import Rocketcycle.Jsonutils.Total
import Rocketcycle.Jsonutils.Writer
import Rocketcycle.Lib.Annotations
import Rocketcycle.Lib.AssignedLogs
import Rocketcycle.Lib.Cut
import Rocketcycle.Lib.Descent
import Rocketcycle.Lib.EarlyReturn
import Rocketcycle.Lib.Entries
import Rocketcycle.Lib.Formats
import Rocketcycle.Lib.GoMaps
import Rocketcycle.Lib.Keyed
import Rocketcycle.Lib.Lockstep
import Rocketcycle.Lib.Register
import Rocketcycle.Lib.Runes
import Rocketcycle.Lib.Runs
import Rocketcycle.Lib.Slices
import Rocketcycle.Lib.Subsequence
import Rocketcycle.Lib.Templates
import Rocketcycle.Lib.Utf8
import Rocketcycle.Lib.Wire
import Rocketcycle.Lib.WireRecords
import Rocketcycle.Mgmt.MgmtConsumer
import Rocketcycle.Mgmt.PlatformTopic
import Rocketcycle.Net.Accounting
import Rocketcycle.Net.CachedInstance
import Rocketcycle.Net.ConsumeTopic
import Rocketcycle.Net.Creation
import Rocketcycle.Net.Decoded
import Rocketcycle.Net.Delivery
import Rocketcycle.Net.Deployment
import Rocketcycle.Net.Failure
import Rocketcycle.Net.Fate
import Rocketcycle.Net.LastWriter
import Rocketcycle.Net.LoneCommand
import Rocketcycle.Net.Notification
import Rocketcycle.Net.Overwriting
import Rocketcycle.Net.OwnerRelated
import Rocketcycle.Net.Provenance
import Rocketcycle.Net.Quiescence
import Rocketcycle.Net.Records
import Rocketcycle.Net.Redelivery
import Rocketcycle.Net.Refreshing
import Rocketcycle.Net.Restart
import Rocketcycle.Net.Sent
import Rocketcycle.Net.Shows
import Rocketcycle.Net.SingleWriter
import Rocketcycle.Net.Sound
import Rocketcycle.Net.StaleRefresh
import Rocketcycle.Net.Standing
import Rocketcycle.Net.Updating
import Rocketcycle.Net.Validation
import Rocketcycle.Net.Work
import Rocketcycle.Platform.ResponseTopic
import Rocketcycle.Rkcy.Acceptance
import Rocketcycle.Rkcy.AllPrograms
import Rocketcycle.Rkcy.ApecsTxn
import Rocketcycle.Rkcy.Commands
import Rocketcycle.Rkcy.Config
import Rocketcycle.Rkcy.ConfigToJson
import Rocketcycle.Rkcy.Decode
import Rocketcycle.Rkcy.Expansion
import Rocketcycle.Rkcy.Generations
import Rocketcycle.Rkcy.HashFunc
import Rocketcycle.Rkcy.InstanceStore
import Rocketcycle.Rkcy.Kafka
import Rocketcycle.Rkcy.Logging
import Rocketcycle.Rkcy.Normalisation
import Rocketcycle.Rkcy.Partitions
import Rocketcycle.Rkcy.Payload
import Rocketcycle.Rkcy.PlatformDef
import Rocketcycle.Rkcy.Programs
import Rocketcycle.Rkcy.RawInstance
import Rocketcycle.Rkcy.RelatedWire
import Rocketcycle.Rkcy.StoreCalls
import Rocketcycle.Rkcy.TopicParts
import Rocketcycle.Rkcy.Topics
import Rocketcycle.Rkcy.Trace
import Rocketcycle.Rkcy.TxnWire
import Rocketcycle.Rkcy.WellFormed
import Rocketcycle.Rkcypb
import Rocketcycle.Runner.Manager
import Rocketcycle.Storage.CrudHandler
import Rocketcycle.Storage.Operations
import Rocketcycle.Storage.RamDb
import Rocketcycle.Stream.ManagedProducer
import Rocketcycle.Stream.Offline
import Rocketcycle.Stream.OfflineConsumer
import Rocketcycle.Stream.Producing
import Rocketcycle.Stream.Submitting
import Rocketcycle.Watch.DecodeTxn
import Rocketcycle.Watch.Display
import Rocketcycle.Watch.TxnJson
