import TradingPlatform.Library.Ladder
import TradingPlatform.Library.Machine
import TradingPlatform.Library.Rounding
import TradingPlatform.Library.Summation
import TradingPlatform.Hft.OrderBook
import TradingPlatform.Hft.Entries
import TradingPlatform.Feed.BinanceSnapshot
import TradingPlatform.Hft.Meaning
import TradingPlatform.Feed.Sync
import TradingPlatform.Feed.Binance
import TradingPlatform.Feed.System
import TradingPlatform.Feed.Chain
import TradingPlatform.Feed.Recovery
import TradingPlatform.Feed.Routing
import TradingPlatform.Feed.PartialDepth
import TradingPlatform.Feed.Interference
import TradingPlatform.Hft.Processor
import TradingPlatform.Hft.Integration
import TradingPlatform.Feed.Delivered
import TradingPlatform.Feed.Downstream
import TradingPlatform.Receiver.Packet
import TradingPlatform.Receiver.Pipeline
import TradingPlatform.Receiver.LocalBook
import TradingPlatform.Hft.Exchanges
import TradingPlatform.Rust.Search
import TradingPlatform.Market.OrderBook
import TradingPlatform.Engine.Matching
import TradingPlatform.Engine.Book
import TradingPlatform.Engine.Events
import TradingPlatform.Features.Calculator
import TradingPlatform.Features.Pipeline
import TradingPlatform.Builder.Builder
import TradingPlatform.Builder.Merge
import TradingPlatform.Builder.Turn
import TradingPlatform.Builder.Live
import TradingPlatform.Builder.Progress
import TradingPlatform.Builder.Recovery
import TradingPlatform.Builder.Backoff
import TradingPlatform.Manager.Manager
import TradingPlatform.Manager.OneBuilder
import TradingPlatform.Manager.Order
import TradingPlatform.Rust.Utf8
import TradingPlatform.Library.Latch
import TradingPlatform.Sender.Packet
import TradingPlatform.Sender.RoundTrip
import TradingPlatform.Sender.Multicast
import TradingPlatform.Receiver.Addresses
import TradingPlatform.Hft.Spsc
import TradingPlatform.Library.Directory
import TradingPlatform.Engine.Persistence
import TradingPlatform.Crypto.Builders
import TradingPlatform.Crypto.Bybit
import TradingPlatform.Crypto.Deribit
import TradingPlatform.Crypto.Channel
import TradingPlatform.Library.Framing
import TradingPlatform.Sender.Batching
import TradingPlatform.Library.Wire
import TradingPlatform.Udp.Codec
import TradingPlatform.Udp.Receiver
import TradingPlatform.Udp.Socket
import TradingPlatform.Sender.Encodes
import TradingPlatform.Sender.Worker
import TradingPlatform.Logger.Flush
import TradingPlatform.Crypto.Timestamps
import TradingPlatform.Oms.Position
import TradingPlatform.Oms.Orders
import TradingPlatform.Oms.Rounded
import TradingPlatform.Oms.Risk
import TradingPlatform.Maker.Orders
import TradingPlatform.Maker.Ladders
import TradingPlatform.Maker.Tracking
import TradingPlatform.Maker.Cleanup
import TradingPlatform.Maker.Margin
import TradingPlatform.Nbbo.Manager
import TradingPlatform.Nbbo.Runs
import TradingPlatform.Library.Seqlock
import TradingPlatform.Cache.MarketCache
import TradingPlatform.Rust.Overflow
import TradingPlatform.Rust.Ieee
import TradingPlatform.Rust.Binary64
import TradingPlatform.Crypto.Parse
import TradingPlatform.Sender.Profiles
import TradingPlatform.Sender.Panics
import TradingPlatform.Crypto.Trades
import TradingPlatform.Features.Direction
import TradingPlatform.Library.Heap
import TradingPlatform.Sender.Normalized
import TradingPlatform.Crypto.Reference
import TradingPlatform.Hft.Registration
import TradingPlatform.Hft.Conversion
import TradingPlatform.Hft.Batches
import TradingPlatform.Sender.Ordered
import TradingPlatform.Udp.Total
import TradingPlatform.Sender.Enhanced
import TradingPlatform.Crypto.Units
import TradingPlatform.Library.Expiry
import TradingPlatform.Library.Guards
import TradingPlatform.Library.Interning
import TradingPlatform.Library.Quoted
import TradingPlatform.Engine.Levels
import TradingPlatform.Features.History
import TradingPlatform.Features.Ranges
import TradingPlatform.Features.Depth
import TradingPlatform.Rust.Slice
import TradingPlatform.Logger.Truncation
import TradingPlatform.Logger.QuestDb
import TradingPlatform.Logger.Locks
import TradingPlatform.Logger.Escape
import TradingPlatform.Logger.Ilp
import TradingPlatform.Cache.SymbolMapper
import TradingPlatform.Config.MetadataRegistry
import TradingPlatform.Library.SlidingWindow
import TradingPlatform.Rust.Duration
import TradingPlatform.Connection.Limits
import TradingPlatform.Connection.Attempts
import TradingPlatform.Connection.Reconnect
import TradingPlatform.Features.Window
import TradingPlatform.Maker.Quotes
import TradingPlatform.Json.Text
import TradingPlatform.Maker.Views
import TradingPlatform.Maker.Positions
import TradingPlatform.Library.FixedWindow
import TradingPlatform.Maker.RateLimit
import TradingPlatform.Library.Delimited
import TradingPlatform.Rust.Fixed
import TradingPlatform.Engine.Checksum
import TradingPlatform.Maker.Status
import TradingPlatform.Rust.BTreeMap
import TradingPlatform.Rust.Collect
import TradingPlatform.Engine.Optimized
import TradingPlatform.Library.Circular
import TradingPlatform.Engine.CircularBuffer
import TradingPlatform.Crypto.Normalizer
import TradingPlatform.Library.Average
import TradingPlatform.Logger.Aggregator
import TradingPlatform.Library.Ranks
import TradingPlatform.Engine.Latency
import TradingPlatform.Connection.Supervisor
import TradingPlatform.Connection.Supervision
import TradingPlatform.Connection.Gauges
import TradingPlatform.Library.Chunks
import TradingPlatform.Connection.Layout
import TradingPlatform.Engine.Crashes
import TradingPlatform.Library.FailStop
import TradingPlatform.Crypto.Readers
import TradingPlatform.Crypto.Published
import TradingPlatform.Library.FanIn
import TradingPlatform.Manager.Pipeline
import TradingPlatform.Sender.Reordering
import TradingPlatform.Library.Spinning
import TradingPlatform.Cache.Progress
import TradingPlatform.Library.Mpsc
import TradingPlatform.Features.Concurrent
import TradingPlatform.Library.Registers
import TradingPlatform.Cache.Fast
import TradingPlatform.Oms.Performance
