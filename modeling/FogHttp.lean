import FogHttp.Lib.Text
import FogHttp.Lib.Net
import FogHttp.Lib.Fallible
import FogHttp.Lib.View
import FogHttp.Lib.Positions
import FogHttp.Lib.Entries
import FogHttp.Lib.Transition
import FogHttp.Lib.Monitor
import FogHttp.Lib.Semaphore
import FogHttp.Lib.Loop
import FogHttp.Lib.Cas
import FogHttp.Lib.OneShot
import FogHttp.Lib.Lines
import FogHttp.Lib.Generator
import FogHttp.Lib.Delimiter
import FogHttp.Lib.Digits
import FogHttp.Lib.Prefix
import FogHttp.Lib.Ranking
import FogHttp.Lib.Search
import FogHttp.Lib.Quoting
import FogHttp.Lib.Float
import FogHttp.Lib.IpAddress
import FogHttp.Lib.Base64
import FogHttp.Lib.Block
import FogHttp.Core.Url
import FogHttp.Core.Origin
import FogHttp.Policy.Ssrf
import FogHttp.Policy.SsrfAddresses
import FogHttp.Policy.Redirect
import FogHttp.Policy.Pipeline
import FogHttp.Policy.Retry
import FogHttp.Policy.RetryAfter
import FogHttp.Policy.RetryDelay
import FogHttp.Policy.Cookies
import FogHttp.Policy.CookieStore
import FogHttp.Policy.CookieRetrieval
import FogHttp.Policy.CookieSecure
import FogHttp.Policy.CookieMaxAge
import FogHttp.Policy.Origins
import FogHttp.Policy.RedirectHeaders
import FogHttp.Transport.Request
import FogHttp.Transport.Chain
import FogHttp.Transport.Confinement
import FogHttp.Transport.Attempts
import FogHttp.Transport.Monotone
import FogHttp.Transport.RetryTrace
import FogHttp.Transport.TraceShape
import FogHttp.Client.Ssrf
import FogHttp.Acquire.Permits
import FogHttp.Acquire.Gate
import FogHttp.Acquire.Capacity
import FogHttp.Acquire.Wakeup
import FogHttp.Acquire.Order
import FogHttp.Streaming.Decoder
import FogHttp.Streaming.Ledger
import FogHttp.Streaming.Steps
import FogHttp.Streaming.Composition
import FogHttp.Streaming.Cap
import FogHttp.Streaming.Codec
import FogHttp.Streaming.Progress
import FogHttp.Upload.Body
import FogHttp.Upload.Completion
import FogHttp.Upload.CleanEnd
import FogHttp.Upload.Chunks
import FogHttp.Upload.Replay
import FogHttp.Upload.Isolation
import FogHttp.Upload.Superseded
import FogHttp.Upload.Feeders
import FogHttp.Upload.Wakeups
import FogHttp.Connection.Telemetry
import FogHttp.Connection.Reuse
import FogHttp.Budgets.Reservation
import FogHttp.Budgets.Accounting
import FogHttp.Response.Decompression
import FogHttp.Response.Plans
import FogHttp.Response.Accounting
import FogHttp.Streams.State
import FogHttp.Streams.Invariant
import FogHttp.Streams.Finished
import FogHttp.Streams.Reading
import FogHttp.Streams.Coalescing
import FogHttp.Streams.Draining
import FogHttp.TextStream.LineSplitter
import FogHttp.TextStream.Chunking
import FogHttp.Multipart.Payload
import FogHttp.Multipart.Stream
import FogHttp.Multipart.Reference
import FogHttp.Multipart.Parsing
import FogHttp.Multipart.RoundTrip
import FogHttp.Multipart.Length
import FogHttp.Redaction.Urllib
import FogHttp.Redaction.Redact
import FogHttp.Redaction.Noninterference
import FogHttp.AsyncRequests.Request
import FogHttp.AsyncRequests.Registry
import FogHttp.AsyncRequests.Winner
import FogHttp.AsyncRequests.Entry
import FogHttp.AsyncRequests.Completion
import FogHttp.ConnectionLimit.Gate
import FogHttp.ConnectionLimit.Caps
import FogHttp.Telemetry.Event
import FogHttp.Telemetry.Shutdown
import FogHttp.Telemetry.Accounted
import FogHttp.Telemetry.Complete
import FogHttp.Telemetry.Journal
import FogHttp.Telemetry.Conservation
import FogHttp.Telemetry.Drains
import FogHttp.Telemetry.Request
import FogHttp.Telemetry.Bracketing
import FogHttp.Connection.Idle
import FogHttp.Connection.IdleAccounts
import FogHttp.Connection.IdleUses
import FogHttp.Acquire.Metrics
import FogHttp.Acquire.Sections
import FogHttp.Acquire.Tally
import FogHttp.Acquire.Attribution
import FogHttp.Headers.Headers
import FogHttp.Headers.Body
import FogHttp.Headers.Request
import FogHttp.Headers.Overrides
import FogHttp.Headers.Precedence
import FogHttp.Headers.ContentType
import FogHttp.Proxy.Tunnel
import FogHttp.Proxy.ByteStream
import FogHttp.Proxy.Segmentation
import FogHttp.Proxy.Endpoint
import FogHttp.Proxy.Balance
import FogHttp.Proxy.NoProxy
import FogHttp.Proxy.NoProxyRules
import FogHttp.Client.Lifecycle
import FogHttp.Client.Shutdown
import FogHttp.Telemetry.NativeDelivery
import FogHttp.Telemetry.DeliveryClose
import FogHttp.Upload.Sources
import FogHttp.Upload.SourceClose
import FogHttp.Redaction.Quote
import FogHttp.Proxy.BasicAuth
import FogHttp.Proxy.Url
import FogHttp.Proxy.Resolver
import FogHttp.Proxy.Routing
import FogHttp.Proxy.Noninterference
import FogHttp.Client.RequestEvents
import FogHttp.Client.RequestLifecycle
import FogHttp.Client.StreamBody
import FogHttp.Metrics.Counters
import FogHttp.Metrics.Reporting
import FogHttp.Metrics.Coherence
import FogHttp.Metrics.Peak
