import TradingPlatform.Connection.Supervision
import TradingPlatform.Feed.Binance
import TradingPlatform.Library.Chunks

/-!
# `Connection.Layout` — which connection asks for which symbols

Each of the seven clients divides the symbols of an asset type into chunks of ten and opens two connections for each
chunk, one for its trades and one for its order books. `new` makes the keys, and `connect` and `subscribe` cut the
chunk of a key out of the symbols again. All of them together ask for every symbol of the configuration once
(`subscriptions_cover`).
-/

namespace TradingPlatform
namespace Connection

open Feed (StreamType)
open Json Chunks

/-! ## Configuration -/

inductive Exchange where
  | binance
  | bybit
  | upbit
  | coinbase
  | okx
  | deribit
  | bithumb
deriving DecidableEq

/-- The part of the configuration that connecting reads. -/
structure ExchangeConfig extends Feed.ExchangeConfig where
  optionSymbols : List String

def symbolsPerConnection : Nat := 10

namespace Exchange

def name : Exchange → String
  | .binance  => "Binance"
  | .bybit    => "Bybit"
  | .upbit    => "Upbit"
  | .coinbase => "Coinbase"
  | .okx      => "OKX"
  | .deribit  => "Deribit"
  | .bithumb  => "Bithumb"

/-- The symbols of an asset type. Four of the clients have only one list of them. -/
def symbols (exchange : Exchange) (config : ExchangeConfig) (assetType : String) : List String :=
  match exchange with
  | .binance | .bybit | .okx       => config.symbols assetType
  | .coinbase | .upbit | .bithumb  => config.spotSymbols
  | .deribit                       => config.futuresSymbols ++ config.optionSymbols

/-- The asset types there is a URL for. -/
def hasUrl (exchange : Exchange) (assetType : String) : Bool :=
  match exchange with
  | .binance => assetType = "spot" ∨ assetType = "futures"
  | .bybit   => assetType = "spot" ∨ assetType = "linear"
  | _        => true

end Exchange

/-! ## Keys -/

/-- `(asset_type, stream_type, chunk_index)` -/
abbrev Key := String × StreamType × Nat

def streamTypes : List StreamType := [.trade, .orderbook]

def streamTypeText : StreamType → String
  | .trade     => "trade"
  | .orderbook => "orderbook"

namespace Exchange

/-- What `new` inserts into `ws_streams`. An asset type that is configured twice does so twice. -/
def newKeys (exchange : Exchange) (config : ExchangeConfig) : List Key :=
  config.assetType.flatMap fun assetType =>
    let numChunks := numChunks symbolsPerConnection (exchange.symbols config assetType).length
    streamTypes.flatMap fun streamType =>
      (List.range numChunks).map fun chunkIdx => (assetType, streamType, chunkIdx)

/-- The map `new` makes: its keys in the order it happens to have. -/
structure WsStreams (exchange : Exchange) (config : ExchangeConfig) where
  keys    : List Key
  nodup   : keys.Nodup
  mem     : ∀ key, key ∈ keys ↔ key ∈ exchange.newKeys config
  bounded : keys.length < 2 ^ 64

theorem mem_newKeys {exchange : Exchange} {config : ExchangeConfig} {assetType : String} {streamType : StreamType}
    {chunkIdx : Nat} :
    (assetType, streamType, chunkIdx) ∈ exchange.newKeys config ↔
      assetType ∈ config.assetType ∧
        chunkIdx < numChunks symbolsPerConnection (exchange.symbols config assetType).length := by
  have hstream : streamType ∈ streamTypes := by cases streamType <;> simp [streamTypes]
  unfold newKeys
  simp only [List.mem_flatMap, List.mem_map, List.mem_range, Prod.mk.injEq]
  constructor
  · rintro ⟨_, hasset, _, -, _, hlt, rfl, -, rfl⟩
    exact ⟨hasset, hlt⟩
  · rintro ⟨hasset, hlt⟩
    exact ⟨assetType, hasset, streamType, hstream, chunkIdx, hlt, rfl, rfl, rfl⟩

/-! ## Subscriptions -/

/-- `&s[start..end]`, `none` where it panics. -/
def slice (xs : List String) (start stop : Nat) : Option (List String) :=
  if start ≤ stop ∧ stop ≤ xs.length then some ((xs.drop start).take (stop - start)) else none

def chunkSymbols (exchange : Exchange) (config : ExchangeConfig) (key : Key) : Option (List String) :=
  let symbols := exchange.symbols config key.1
  let startIdx := key.2.2 * symbolsPerConnection
  let endIdx := min (startIdx + symbolsPerConnection) symbols.length
  slice symbols startIdx endIdx

/-- How a connection asks for its streams: in the URL, or with a message. -/
inductive Request where
  | url (host : String) (streams : List String)
  | message (value : Value)

/-- What a connection asks for one symbol. Binance wants it in lower case; symbols are taken to be ASCII. -/
def topics (exchange : Exchange) (config : ExchangeConfig) (assetType : String) (streamType : StreamType)
    (symbol : String) : List Value :=
  match exchange, streamType with
  | .binance, .trade      => [.string (Rust.toLowercase symbol ++ "@trade")]
  | .binance, .orderbook  => [.string (config.orderbookStream assetType symbol)]
  | .bybit, .trade        => [.string ("publicTrade." ++ symbol)]
  | .bybit, .orderbook    =>
      if config.orderDepth > 0 then
        [.string ("orderbook." ++ toString config.orderDepth ++ "." ++ symbol)]
      else []
  | .okx, .trade          => [.object [("channel", .string "trades"), ("instId", .string symbol)]]
  -- OKX supports: books (400 levels), books5 (5 levels)
  | .okx, .orderbook      => [.object [("channel", .string "books5"), ("instId", .string symbol)]]
  | .deribit, .trade      => [.string ("ticker." ++ symbol ++ ".100ms"), .string ("trades." ++ symbol ++ ".100ms")]
  | .deribit, .orderbook  => [.string ("book." ++ symbol ++ ".100ms")]
  | .upbit, .trade        => [.string symbol]
  | .upbit, .orderbook    => if config.orderDepth > 0 then [.string symbol] else []
  | .coinbase, _          => [.string symbol]
  | .bithumb, _           => [.string symbol]

/-- `subscribe`, or for Binance `connect_websocket`, with the symbols of the chunk. -/
def request (exchange : Exchange) (config : ExchangeConfig) (key : Key) (chunkSymbols : List String) : Request :=
  let (assetType, streamType, chunkIdx) := key
  let args := chunkSymbols.flatMap (exchange.topics config assetType streamType)
  match exchange with
  | .binance =>
      let host := if assetType = "spot" then "wss://stream.binance.com:9443" else "wss://fstream.binance.com"
      .url (host ++ "/stream?streams=") (args.filterMap Value.asStr?)
  | .bybit | .okx => .message (.object [("op", .string "subscribe"), ("args", .array args)])
  | .coinbase =>
      let channel := if streamType = .trade then "market_trades" else "level2"
      .message (.object [("type", .string "subscribe"), ("product_ids", .array args), ("channel", .string channel)])
  | .deribit =>
      let id := 8066 + chunkIdx * 100 + if streamType = .trade then 0 else 50
      .message (.object [("jsonrpc", .string "2.0"), ("id", .ofNat id), ("method", .string "public/subscribe"),
        ("params", .object [("channels", .array args)])])
  | .upbit =>
      let ticket := "upbit-" ++ assetType ++ "-" ++ streamTypeText streamType ++ "-" ++ toString chunkIdx
      let subscription :=
        if streamType = .orderbook ∧ config.orderDepth = 0 then []
        else [.object [("type", .string (streamTypeText streamType)), ("codes", .array args),
          ("isOnlyRealtime", .bool true)]]
      .message (.array (.object [("ticket", .string ticket)] :: subscription ++
        [.object [("format", .string "DEFAULT")]]))
  | .bithumb =>
      let ticket := "bithumb_" ++ streamTypeText streamType ++ "_" ++ assetType ++ "_" ++ toString chunkIdx
      let level := if streamType = .trade then [] else [("level", .ofNat 10)]
      .message (.array [.object [("ticket", .string ticket)],
        .object ([("type", .string (streamTypeText streamType)), ("codes", .array args)] ++ level),
        .object [("format", .string "DEFAULT")]])

/-- What the exchange reads in a request. -/
def asked (exchange : Exchange) : Request → List Value
  | .url _ streams => streams.map .string
  | .message value =>
      let list : Value :=
        match exchange with
        | .binance         => .null
        | .bybit | .okx    => value.index "args"
        | .coinbase        => value.index "product_ids"
        | .deribit         => (value.index "params").index "channels"
        | .upbit | .bithumb => ((value.getIdx? 1).getD .null).index "codes"
      list.asArray?.getD []

/-- What the connection of a key asks for. -/
def subscription (exchange : Exchange) (config : ExchangeConfig) (key : Key) : List Value :=
  ((exchange.chunkSymbols config key).map fun symbols => exchange.asked (exchange.request config key symbols)).getD []

/-! ## What is asked for -/

variable (exchange : Exchange) (config : ExchangeConfig)

/-- Binance's streams are text. -/
theorem map_string_topics (assetType : String) (streamType : StreamType) (symbols : List String) :
    ((symbols.flatMap (binance.topics config assetType streamType)).filterMap Value.asStr?).map Value.string
      = symbols.flatMap (binance.topics config assetType streamType) := by
  induction symbols with
  | nil => rfl
  | cons symbol symbols ih =>
      rw [List.flatMap_cons, List.filterMap_append, List.map_append, ih]
      cases streamType <;> rfl

/-- A request says what it was made for. -/
theorem asked_request (key : Key) (symbols : List String) :
    exchange.asked (exchange.request config key symbols)
      = symbols.flatMap (exchange.topics config key.1 key.2.1) := by
  obtain ⟨assetType, streamType, chunkIdx⟩ := key
  cases exchange with
  | binance => exact map_string_topics config assetType streamType symbols
  | bybit | okx | coinbase | deribit | bithumb => rfl
  | upbit =>
      cases streamType with
      | trade => rfl
      | orderbook =>
          by_cases hdepth : config.orderDepth = 0
          · have hnone : symbols.flatMap (upbit.topics config assetType .orderbook) = [] := by
              refine List.flatMap_eq_nil_iff.mpr fun symbol _ => ?_
              exact if_neg (Nat.not_lt.mpr (Nat.le_of_eq hdepth))
            rw [hnone]
            simp only [request, hdepth, and_self, if_true]
            rfl
          · simp only [request, hdepth, and_false, if_false]
            rfl

/-- The slice of a chunk is in range. -/
theorem chunkSymbols_eq {key : Key} (h : key.2.2 < numChunks symbolsPerConnection (exchange.symbols config key.1).length) :
    exchange.chunkSymbols config key
      = some (chunk symbolsPerConnection (exchange.symbols config key.1) key.2.2) := by
  rw [lt_numChunks_iff (by decide)] at h
  unfold chunkSymbols slice chunk
  dsimp only
  rw [if_pos ⟨by omega, Nat.min_le_right ..⟩]
  congr 1
  refine List.take_eq_take_iff.mpr ?_
  rw [List.length_drop]
  omega

theorem subscription_eq {key : Key}
    (h : key.2.2 < numChunks symbolsPerConnection (exchange.symbols config key.1).length) :
    exchange.subscription config key
      = (chunk symbolsPerConnection (exchange.symbols config key.1) key.2.2).flatMap
          (exchange.topics config key.1 key.2.1) := by
  unfold subscription
  rw [chunkSymbols_eq exchange config h]
  exact asked_request exchange config key _

/-- The connections of an asset type for one kind of stream, in the order of their chunks. -/
theorem flatMap_subscription (assetType : String) (streamType : StreamType) :
    ((List.range (numChunks symbolsPerConnection (exchange.symbols config assetType).length)).flatMap
        fun chunkIdx => exchange.subscription config (assetType, streamType, chunkIdx))
      = (exchange.symbols config assetType).flatMap (exchange.topics config assetType streamType) := by
  have heach : ∀ chunkIdx ∈ List.range (numChunks symbolsPerConnection (exchange.symbols config assetType).length),
      exchange.subscription config (assetType, streamType, chunkIdx)
        = (chunk symbolsPerConnection (exchange.symbols config assetType) chunkIdx).flatMap
            (exchange.topics config assetType streamType) :=
    fun chunkIdx hidx =>
      @subscription_eq exchange config (assetType, streamType, chunkIdx) (List.mem_range.mp hidx)
  rw [List.flatMap_congr heach, ← List.flatMap_assoc, flatMap_chunk (by decide)]

variable {exchange config}

/-- The connections there are, for one asset type and kind of stream. -/
theorem filter_keys (map : WsStreams exchange config) {assetType : String}
    (hasset : assetType ∈ config.assetType) (streamType : StreamType) :
    (map.keys.filter fun key => key.1 = assetType ∧ key.2.1 = streamType).Perm
      ((List.range (numChunks symbolsPerConnection (exchange.symbols config assetType).length)).map
        fun chunkIdx => (assetType, streamType, chunkIdx)) := by
  have hinj : Function.Injective fun chunkIdx : Nat => (assetType, streamType, chunkIdx) :=
    fun _ _ heq => (Prod.mk.inj (Prod.mk.inj heq).2).2
  refine (List.perm_ext_iff_of_nodup (map.nodup.filter _) (List.nodup_range.map hinj)).mpr fun key => ?_
  obtain ⟨assetType', streamType', chunkIdx⟩ := key
  rw [List.mem_filter, map.mem, mem_newKeys, List.mem_map]
  simp only [decide_eq_true_eq, List.mem_range, Prod.mk.injEq]
  constructor
  · rintro ⟨⟨-, hlt⟩, rfl, rfl⟩
    exact ⟨chunkIdx, hlt, rfl, rfl, rfl⟩
  · rintro ⟨_, hlt, rfl, rfl, rfl⟩
    exact ⟨⟨hasset, hlt⟩, rfl, rfl⟩

/-- Connections that are those of the map ask for everything. -/
theorem covered (map : WsStreams exchange config) {keys : List Key} (hkeys : keys.Perm map.keys) {assetType : String}
    (hasset : assetType ∈ config.assetType) (streamType : StreamType) :
    ((keys.filter fun key => key.1 = assetType ∧ key.2.1 = streamType).flatMap (exchange.subscription config)).Perm
      ((exchange.symbols config assetType).flatMap (exchange.topics config assetType streamType)) := by
  have hperm := ((hkeys.filter _).trans (filter_keys map hasset streamType)).flatMap_right
    (exchange.subscription config)
  rw [List.flatMap_map, flatMap_subscription] at hperm
  exact hperm

/-- **Every symbol is asked for once.** In whatever order the map of a client has its connections, those of an asset
    type and a kind of stream ask together for just the topics of its symbols, as often as the symbols are configured;
    each of them is for one to ten symbols, and none of the slices is out of range. -/
theorem subscriptions_cover (exchange : Exchange) (config : ExchangeConfig) (map : WsStreams exchange config) :
    (∀ assetType ∈ config.assetType, ∀ streamType,
      ((map.keys.filter fun key => key.1 = assetType ∧ key.2.1 = streamType).flatMap
          (exchange.subscription config)).Perm
        ((exchange.symbols config assetType).flatMap (exchange.topics config assetType streamType))) ∧
    ∀ key ∈ map.keys, ∃ symbols, exchange.chunkSymbols config key = some symbols ∧
      0 < symbols.length ∧ symbols.length ≤ symbolsPerConnection := by
  refine ⟨fun assetType hasset streamType => covered map (List.Perm.refl _) hasset streamType, fun key hkey => ?_⟩
  have hlt := (mem_newKeys.mp ((map.mem key).mp hkey)).2
  exact ⟨_, chunkSymbols_eq exchange config hlt, length_chunk_pos (by decide) hlt, length_chunk_le⟩

/-! ## The client and its supervisor -/

/-- The client of an exchange, as its supervisor sees it. -/
def client (exchange : Exchange) (config : ExchangeConfig) (map : WsStreams exchange config) : Client Key String where
  keys      := map.keys
  nodup     := map.nodup
  bounded   := map.bounded
  accepts   := fun key => exchange.hasUrl key.1
  retry     :=
    match exchange with
    | .binance | .okx | .upbit                 => .forever
    | .bybit | .coinbase | .deribit | .bithumb => .skip
  announces := exchange ≠ .binance
  statsKey  := fun key => exchange.name ++ "_" ++ key.1 ++ "_" ++ streamTypeText key.2.1
  records   := fun how =>
    match exchange with
    | .binance | .okx | .upbit                 => false
    | .bybit | .coinbase | .deribit | .bithumb => how = .closed ∨ how = .error ∨ how = .streamEnded

open Machine Supervisor

/-- **All or nothing.** After any history of an exchange, its tasks can come to stream all its symbols again just as long
    as no task has panicked and there is a URL for every asset type that has symbols: from a moment on at which there is
    no task, the requests that are sent are for all topics, each as often as it is configured, and all connections come to
    be run by a task. -/
theorem streams_again_iff (exchange : Exchange) (config : ExchangeConfig) (map : WsStreams exchange config)
    (events : List (Event Key)) :
    let client := exchange.client config map
    let s := (run (step client) (init client) events).1
    (∃ before round, let t := (run (step client) s before).1
      let outcome := run (step client) t round
      t.running = [] ∧ t.panicked = [] ∧ outcome.1.running.Perm map.keys ∧
        ∀ assetType ∈ config.assetType, ∀ streamType,
          (((outcome.2.filterMap (asks client)).filter fun key => key.1 = assetType ∧ key.2.1 = streamType).flatMap
              (exchange.subscription config)).Perm
            ((exchange.symbols config assetType).flatMap (exchange.topics config assetType streamType))) ↔
      s.panicked = [] ∧
        ∀ assetType ∈ config.assetType, exchange.symbols config assetType ≠ [] → exchange.hasUrl assetType = true := by
  intro client s
  have hs : Invariant client s := (Invariant.init _).run events
  have haccepts : (∀ key ∈ map.keys, exchange.hasUrl key.1 = true) ↔
      ∀ assetType ∈ config.assetType, exchange.symbols config assetType ≠ [] → exchange.hasUrl assetType = true := by
    constructor
    · intro hall assetType hasset hne
      have hlt : 0 < numChunks symbolsPerConnection (exchange.symbols config assetType).length := by
        rw [lt_numChunks_iff (by decide), Nat.zero_mul]
        exact List.length_pos_iff.mpr hne
      exact hall (assetType, .trade, 0) ((map.mem _).mpr (mem_newKeys.mpr ⟨hasset, hlt⟩))
    · intro hall ⟨assetType, streamType, chunkIdx⟩ hkey
      obtain ⟨hasset, hlt⟩ := mem_newKeys.mp ((map.mem _).mp hkey)
      refine hall assetType hasset fun hnil => ?_
      rw [hnil, lt_numChunks_iff (by decide)] at hlt
      exact Nat.not_lt_zero _ hlt
  rw [← haccepts]
  constructor
  · rintro ⟨before, round, hrunning, hpanicked, hperm, -⟩
    rw [← run_append_state] at hperm
    exact hs.of_served fun key hkey => hperm.mem_iff.mpr hkey
  · intro hcan
    obtain ⟨before, round, hidle, hserved, hasked⟩ := (recovers_iff client events).mpr hcan
    have hround : Invariant client (run (step client) (run (step client) s before).1 round).1 := (hs.run before).run round
    refine ⟨before, round, hidle.1, hidle.2, ?_, fun assetType hasset streamType => covered map hasked hasset streamType⟩
    refine (List.perm_ext_iff_of_nodup (List.nodup_append.mp hround.nodup).1 map.nodup).mpr fun key => ?_
    exact ⟨fun hkey => hround.known key (List.mem_append_left _ hkey), hserved key⟩

end Exchange
end Connection
end TradingPlatform
