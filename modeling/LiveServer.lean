import LiveServer.Handler.Callback
import LiveServer.Server
import LiveServer.Effects
import LiveServer.Footprint
import LiveServer.Publishing.SinglePublisher
import LiveServer.Agent
import LiveServer.Alone
import LiveServer.Coherence.CachedRead
import LiveServer.Coherence.Interleaved
import LiveServer.Coherence.Keys
import LiveServer.Publishing.Carriers
import LiveServer.Publishing.Gauges
import LiveServer.Publishing.Hook
import LiveServer.Publishing.LateUnpublish
import LiveServer.Publishing.Orphans
import LiveServer.Publishing.Reconciliation
import LiveServer.Publishing.Rejection
import LiveServer.Publishing.Secrecy
import LiveServer.Publishing.Sessions
import LiveServer.Publishing.Timestamps
import LiveServer.Monitor.ClientList
import LiveServer.Monitor.Grammar
import LiveServer.Monitor.Series
import LiveServer.Playback.RoundTrip
import LiveServer.PushTest.Bitrate
import LiveServer.PushTest.Quoting
import LiveServer.PushTest.Redaction
import LiveServer.Tasks.Restarts
import LiveServer.Viewers.Audience
import LiveServer.Viewers.Interleaved
import LiveServer.Viewers.Polling
import LiveServer.Concurrent.Interface
import LiveServer.JWT
import LiveServer.Middleware
import LiveServer.Handler.Stream
import LiveServer.Api.Server
import LiveServer.Api.Authority
import LiveServer.Api.Answers
import LiveServer.Api.Session
import LiveServer.Api.Counters
import LiveServer.Api.Atomic
import LiveServer.Concurrent.Erasure
import LiveServer.Coherence.Cacheless
import LiveServer.Api.Kicks
import LiveServer.Api.Records
import LiveServer.Coherence.Staleness
import LiveServer.Api.Isolation
import LiveServer.Concurrent.Delegation
import LiveServer.Api.Delegation
import LiveServer.Api.Publishers
