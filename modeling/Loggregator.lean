import Loggregator.Doppler.AppServices
import Loggregator.Doppler.Blacklist
import Loggregator.Doppler.BroadcastDelivery
import Loggregator.Doppler.CacheCells
import Loggregator.Doppler.CacheConvergence
import Loggregator.Doppler.ContainerMetricSink
import Loggregator.Doppler.DrainNodes
import Loggregator.Doppler.DrainSync
import Loggregator.Doppler.DropAccounting
import Loggregator.Doppler.DropNotices
import Loggregator.Doppler.DumpSink
import Loggregator.Doppler.GroupedSinks
import Loggregator.Doppler.Router
import Loggregator.Doppler.RouterBookkeeping
import Loggregator.Doppler.RouterDelivery
import Loggregator.Doppler.SinkData
import Loggregator.Doppler.SinkGauges
import Loggregator.Doppler.SinkLifecycle
import Loggregator.Doppler.SinkManager
import Loggregator.Doppler.SinkRegistry
import Loggregator.Doppler.StoreWatcher
import Loggregator.Doppler.SyslogBackoff
import Loggregator.Doppler.SyslogConn
import Loggregator.Doppler.SyslogDrains
import Loggregator.Doppler.SyslogMessage
import Loggregator.Doppler.SyslogSink
import Loggregator.Doppler.TruncatingBuffer
import Loggregator.Doppler.WatcherLog
import Loggregator.Doppler.WebsocketServer
import Loggregator.DopplerService.Announcer
import Loggregator.DopplerService.Discovery
import Loggregator.DopplerService.Finder
import Loggregator.DopplerService.FinderPanics
import Loggregator.DopplerService.MetaNodes
import Loggregator.DopplerService.Publication
import Loggregator.DopplerService.Recovery
import Loggregator.DopplerService.ZonePreference
import Loggregator.Lib.Bytes
import Loggregator.Lib.ChangeLog
import Loggregator.Lib.Dict
import Loggregator.Lib.Float64
import Loggregator.Lib.Framing
import Loggregator.Lib.Handoff
import Loggregator.Lib.HtmlTemplate
import Loggregator.Lib.IP
import Loggregator.Lib.Json
import Loggregator.Lib.JsonWrite
import Loggregator.Lib.KeyMax
import Loggregator.Lib.LengthPrefix
import Loggregator.Lib.Path
import Loggregator.Lib.Replica
import Loggregator.Lib.Ring
import Loggregator.Lib.RoundRobin
import Loggregator.Lib.Sha1
import Loggregator.Lib.Time
import Loggregator.Lib.Totals
import Loggregator.Lib.Transition
import Loggregator.Lib.Unmarshal
import Loggregator.Lib.Url
import Loggregator.Lib.UrlEncoding
import Loggregator.Lib.Utf8
import Loggregator.MetricEmitter.Counter
import Loggregator.Metron.BatchWriter
import Loggregator.Metron.Batching
import Loggregator.Metron.ClientPool
import Loggregator.Metron.ConnManager
import Loggregator.Metron.ConnManagerV2
import Loggregator.Metron.ConnSlot
import Loggregator.Metron.CounterAggregator
import Loggregator.Metron.Fetchers
import Loggregator.Metron.MessageAggregator
import Loggregator.Metron.TagHash
import Loggregator.Metron.Transponder
import Loggregator.Plumbing.AppId
import Loggregator.Plumbing.ClientList
import Loggregator.Plumbing.Coverage
import Loggregator.Plumbing.Envelope
import Loggregator.Plumbing.EnvelopeAverager
import Loggregator.Plumbing.Frame
import Loggregator.Plumbing.GaugeMetrics
import Loggregator.Plumbing.GrpcConnector
import Loggregator.Plumbing.HttpIdentity
import Loggregator.Plumbing.Pool
import Loggregator.Plumbing.PoolEntries
import Loggregator.Plumbing.RoundTrip
import Loggregator.Plumbing.Streams
import Loggregator.Plumbing.TagModes
import Loggregator.Plumbing.TagPrecedence
import Loggregator.Plumbing.ToV1
import Loggregator.Plumbing.ToV1Spec
import Loggregator.Plumbing.ToV2
import Loggregator.Plumbing.ToV2Spec
import Loggregator.Plumbing.UuidText
import Loggregator.Rlp.Egress
import Loggregator.Rlp.SourceFilter
import Loggregator.SyslogDrainBinder.DrainStore
import Loggregator.SyslogDrainBinder.Elector
import Loggregator.SyslogDrainBinder.MainLoop
import Loggregator.SyslogDrainBinder.Poller
import Loggregator.TrafficController.AccessLog
import Loggregator.TrafficController.Authorization
import Loggregator.TrafficController.ContainerMetrics
import Loggregator.TrafficController.RemoteInfo
import Loggregator.TrafficController.WebsocketStream
