import Mathlib.Data.Rat.Defs

/-!
# `Market.Types` — the market data types all components share
-/

namespace TradingPlatform
namespace Market

inductive Exchange where
  | binance
  | binanceFutures
  | bybit
  | bybitLinear
  | upbit
  | coinbase
  | okx
  | deribit
  | bithumb
  | lsExchange
deriving DecidableEq, Repr

structure PriceLevel where
  price    : ℚ
  quantity : ℚ
deriving DecidableEq, Repr

structure OrderBookUpdate where
  exchange      : Exchange
  symbol        : String
  timestamp     : Int
  bids          : List PriceLevel
  asks          : List PriceLevel
  isSnapshot    : Bool
  updateId      : Nat
  firstUpdateId : Nat
  prevUpdateId  : Option Nat
deriving DecidableEq, Repr

/-- `OrderBookUpdate::default()` -/
instance : Inhabited OrderBookUpdate :=
  ⟨{ exchange := .binance, symbol := "", timestamp := 0, bids := [], asks := [], isSnapshot := false,
     updateId := 0, firstUpdateId := 0, prevUpdateId := none }⟩

inductive Side where
  | buy
  | sell
deriving DecidableEq, Repr

structure Trade where
  exchange  : Exchange
  symbol    : String
  timestamp : Int
  price     : ℚ
  quantity  : ℚ
  side      : Side
  tradeId   : String
deriving DecidableEq, Repr

end Market
end TradingPlatform
