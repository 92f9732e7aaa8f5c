import TradingPlatform.Rust.Duration
import TradingPlatform.Rust.Text

/-!
# `Connection.Limits` — what `ExchangeConnectionLimits` allows each exchange

The backoff multipliers are the decimals of the source, as exact rationals.
-/

namespace TradingPlatform
namespace Connection

open Rust.Duration

structure ExchangeConnectionLimits where
  maxSymbolsPerConnection  : Nat
  maxMessagesPerSecond     : Nat
  maxConcurrentConnections : Nat
  initialReconnectDelay    : Nat
  maxReconnectDelay        : Nat
  connectionAttemptWindow  : Nat
  maxAttemptsPerWindow     : Nat
  backoffMultiplier        : ℚ
  useJitter                : Bool
deriving DecidableEq

namespace ExchangeConnectionLimits

/-- `Default for ExchangeConnectionLimits`. -/
def default : ExchangeConnectionLimits where
  maxSymbolsPerConnection  := 20
  maxMessagesPerSecond     := 5
  maxConcurrentConnections := 5
  initialReconnectDelay    := fromSecs 5
  maxReconnectDelay        := fromSecs 600
  connectionAttemptWindow  := fromSecs 300
  maxAttemptsPerWindow     := 10
  backoffMultiplier        := 2
  useJitter                := true

def binance : ExchangeConnectionLimits where
  maxSymbolsPerConnection  := 20
  maxMessagesPerSecond     := 4
  maxConcurrentConnections := 50
  initialReconnectDelay    := fromSecs 1
  maxReconnectDelay        := fromSecs 300
  connectionAttemptWindow  := fromSecs 300
  maxAttemptsPerWindow     := 200
  backoffMultiplier        := 3 / 2
  useJitter                := true

def bybit : ExchangeConnectionLimits where
  maxSymbolsPerConnection  := 20
  maxMessagesPerSecond     := 15
  maxConcurrentConnections := 100
  initialReconnectDelay    := fromSecs 1
  maxReconnectDelay        := fromSecs 600
  connectionAttemptWindow  := fromSecs 300
  maxAttemptsPerWindow     := 100
  backoffMultiplier        := 3 / 2
  useJitter                := true

def okx : ExchangeConnectionLimits where
  maxSymbolsPerConnection  := 20
  maxMessagesPerSecond     := 8
  maxConcurrentConnections := 30
  initialReconnectDelay    := fromSecs 1
  maxReconnectDelay        := fromSecs 300
  connectionAttemptWindow  := fromSecs 120
  maxAttemptsPerWindow     := 6
  backoffMultiplier        := 9 / 5
  useJitter                := true

def coinbase : ExchangeConnectionLimits where
  maxSymbolsPerConnection  := 8
  maxMessagesPerSecond     := 6
  maxConcurrentConnections := 70
  initialReconnectDelay    := fromSecs 1
  maxReconnectDelay        := fromSecs 300
  connectionAttemptWindow  := fromSecs 60
  maxAttemptsPerWindow     := 20
  backoffMultiplier        := 2
  useJitter                := true

def deribit : ExchangeConnectionLimits where
  maxSymbolsPerConnection  := 20
  maxMessagesPerSecond     := 8
  maxConcurrentConnections := 15
  initialReconnectDelay    := fromSecs 2
  maxReconnectDelay        := fromSecs 600
  connectionAttemptWindow  := fromSecs 60
  maxAttemptsPerWindow     := 8
  backoffMultiplier        := 2
  useJitter                := true

def upbit : ExchangeConnectionLimits where
  maxSymbolsPerConnection  := 20
  maxMessagesPerSecond     := 4
  maxConcurrentConnections := 50
  initialReconnectDelay    := fromSecs 1
  maxReconnectDelay        := fromSecs 300
  connectionAttemptWindow  := fromSecs 300
  maxAttemptsPerWindow     := 5
  backoffMultiplier        := 2
  useJitter                := true

def bithumb : ExchangeConnectionLimits where
  maxSymbolsPerConnection  := 20
  maxMessagesPerSecond     := 8
  maxConcurrentConnections := 20
  initialReconnectDelay    := fromSecs 1
  maxReconnectDelay        := fromSecs 600
  connectionAttemptWindow  := fromSecs 60
  maxAttemptsPerWindow     := 20
  backoffMultiplier        := 9 / 5
  useJitter                := true

/-- The name is put in lower case as ASCII. -/
def forExchange (exchange : String) : ExchangeConnectionLimits :=
  match Rust.toLowercase exchange with
  | "binance"  => binance
  | "bybit"    => bybit
  | "okx"      => okx
  | "coinbase" => coinbase
  | "deribit"  => deribit
  | "upbit"    => upbit
  | "bithumb"  => bithumb
  | _          => default

/-- The limits an exchange can get. -/
def presets : List ExchangeConnectionLimits := [binance, bybit, okx, coinbase, deribit, upbit, bithumb, default]

theorem forExchange_mem (exchange : String) : forExchange exchange ∈ presets := by
  unfold forExchange presets
  split <;> simp

/-- What the functions that use the limits rely on. -/
structure Sound (limits : ExchangeConnectionLimits) : Prop where
  attempts   : 1 ≤ limits.maxAttemptsPerWindow
  initial    : 1 ≤ limits.initialReconnectDelay
  multiplier : 3 / 2 ≤ limits.backoffMultiplier
  even       : limits.maxReconnectDelay % 2 = 0
  max        : limits.maxReconnectDelay ≤ fromSecs 600
  jitter     : limits.useJitter = true

theorem forExchange_sound (exchange : String) : (forExchange exchange).Sound := by
  have hall : ∀ limits ∈ presets, limits.Sound := by
    intro limits hmem
    simp only [presets, List.mem_cons, List.not_mem_nil, or_false] at hmem
    rcases hmem with rfl | rfl | rfl | rfl | rfl | rfl | rfl | rfl <;> constructor <;> decide +kernel
  exact hall _ (forExchange_mem exchange)

end ExchangeConnectionLimits

end Connection
end TradingPlatform
