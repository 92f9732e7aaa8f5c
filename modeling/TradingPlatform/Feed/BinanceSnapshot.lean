import TradingPlatform.Json.Value

/-!
# `Feed.BinanceSnapshot` — the per-symbol synchroniser

The stream carries increments only; the synchroniser holds the REST snapshot, buffers depth events until
they can be joined to it, and afterwards watches that each event continues the one before. The locks of the
source are not modelled: every method here is one atomic step on the whole record.

What `synchronize` and `validate_event` can do is said once, in `Feed.Sync`.
-/

namespace TradingPlatform
namespace Feed

open Json

/-! ## Data -/

structure BinanceSnapshot where
  symbol       : String
  lastUpdateId : Nat
  bids         : List (String × String)
  asks         : List (String × String)
deriving DecidableEq

/-- A depth event: `U`, `u`, the optional `pu`, and the message itself. -/
structure BufferedDepthEvent where
  firstUpdateId : Nat
  finalUpdateId : Nat
  prevUpdateId  : Option Nat
  data          : Value

structure BinanceOrderbookSynchronizer where
  symbol                : String
  assetType             : String
  snapshot              : Option BinanceSnapshot
  eventBuffer           : List BufferedDepthEvent
  isSynchronized        : Bool
  lastValidatedUpdateId : Nat

namespace BinanceOrderbookSynchronizer

def new (symbol assetType : String) : BinanceOrderbookSynchronizer where
  symbol                := symbol
  assetType             := assetType
  snapshot              := none
  eventBuffer           := []
  isSynchronized        := false
  lastValidatedUpdateId := 0

/-! ## Fetching the snapshot -/

/-- What one request brings back: an answer with its status, error text and parsed body, or no answer. -/
inductive HttpReply where
  | response (success : Bool) (status errorText : String) (body : Except String Value)
  | failed (error : String)

def maxRetries : Nat := 3

/-- A `[price, qty]` pair of strings; anything else is left out. -/
def parseLevel (level : Value) : Option (String × String) :=
  match level.asArray? with
  | some (price :: qty :: _) => do return (← price.asStr?, ← qty.asStr?)
  | _                        => none

def parseSnapshot (symbol : String) (json : Value) : Except String BinanceSnapshot := do
  let some lastUpdateId := (json.get? "lastUpdateId").bind Value.asU64?
    | throw "Missing lastUpdateId in snapshot"
  let some bids := (json.get? "bids").bind Value.asArray? | throw "Missing bids in snapshot"
  let some asks := (json.get? "asks").bind Value.asArray? | throw "Missing asks in snapshot"
  return { symbol, lastUpdateId, bids := bids.filterMap parseLevel, asks := asks.filterMap parseLevel }

/-- A body that does not parse ends the fetch at once. -/
def parseBody (symbol : String) : Except String Value → Except String BinanceSnapshot
  | .ok json => parseSnapshot symbol json
  | .error e => .error s!"Failed to parse JSON: {e}"

/-- The request loop: a failed request is repeated until the retries are used up. -/
def fetchLoop (symbol : String) (reply : Nat → HttpReply) : Nat → Except String BinanceSnapshot
  | 0 =>
    match reply (maxRetries - 1) with
    | .response true _ _ body       => parseBody symbol body
    | .response false status text _ => .error s!"HTTP {status}: {text}"
    | .failed e                     => .error s!"Network error after {maxRetries} retries: {e}"
  | retriesLeft + 1 =>
    match reply (maxRetries - 1 - (retriesLeft + 1)) with
    | .response true _ _ body => parseBody symbol body
    -- an error status is repeated like a failed request
    | _                       => fetchLoop symbol reply retriesLeft

/-- `client` is the HTTP client once built, answering by the number of the attempt. -/
def fetchSnapshot (s : BinanceOrderbookSynchronizer) (client : Except String (String → Nat → HttpReply)) :
    BinanceOrderbookSynchronizer × Except String BinanceSnapshot :=
  let url : Except String String :=
    match s.assetType with
    | "spot"    => .ok s!"https://api.binance.com/api/v3/depth?symbol={s.symbol}&limit=1000"
    | "futures" => .ok s!"https://fapi.binance.com/fapi/v1/depth?symbol={s.symbol}&limit=1000"
    | other     => .error s!"Invalid asset type: {other}"
  match url, client with
  | .error e, _       => (s, .error e)
  | .ok _, .error e   => (s, .error s!"Failed to create HTTP client: {e}")
  | .ok url, .ok http =>
    match fetchLoop s.symbol (http url) (maxRetries - 1) with
    | .ok snapshot => ({ s with snapshot := some snapshot }, .ok snapshot)
    | .error e     => (s, .error e)

/-! ## Buffering, synchronising, validating -/

/-- Capacity of the event buffer. -/
def maxBuffered : Nat := 10000

/-- The buffer with room for one more event: when it is full the oldest is dropped. -/
def makeRoom (buffer : List BufferedDepthEvent) : List BufferedDepthEvent :=
  if buffer.length ≥ maxBuffered then buffer.tail else buffer

def bufferEvent (s : BinanceOrderbookSynchronizer) (event : BufferedDepthEvent) :
    BinanceOrderbookSynchronizer :=
  { s with eventBuffer := makeRoom s.eventBuffer ++ [event] }

/-- The drain loop: a `pu` that is present has to name the final id of the event before. -/
def collectValidated (prevFinalUpdateId : Nat) :
    List BufferedDepthEvent → Except String (List Value × Nat)
  | []              => .ok ([], prevFinalUpdateId)
  | event :: events =>
    match event.prevUpdateId with
    | some pu =>
      if pu ≠ prevFinalUpdateId then
        .error s!"Sequence gap: expected pu={prevFinalUpdateId}, got pu={pu}. Resync required."
      else
        (collectValidated event.finalUpdateId events).map fun (vs, last) => (event.data :: vs, last)
    -- spot events have no `pu`: nothing is compared
    | none =>
      (collectValidated event.finalUpdateId events).map fun (vs, last) => (event.data :: vs, last)

/-- The body of `synchronize`, once the snapshot is there. -/
def synchronizeWith (s : BinanceOrderbookSynchronizer) (snapshot : BinanceSnapshot) :
    BinanceOrderbookSynchronizer × Except String (List Value) :=
  let last := snapshot.lastUpdateId
  -- `drain` empties the buffer also when the loop leaves it early
  let cleared := { s with eventBuffer := [] }
  -- `retain`: events up to the snapshot are dropped, the one that ends at it included
  match s.eventBuffer.filter (last < ·.finalUpdateId) with
  | []              => (cleared, .error "No valid events in buffer after filtering")
  | first :: events =>
    let firstU := first.firstUpdateId
    let firstFinalU := first.finalUpdateId
    -- no `+ 1` here: an event that starts right after the snapshot does not overlap
    if ¬ (firstU ≤ last ∧ last ≤ firstFinalU) then
      (cleared, .error s!"First event doesn't overlap with snapshot. Expected U<={last} AND u>={last}, got U={firstU}, u={firstFinalU}")
    else
      match collectValidated last (first :: events) with
      | .error e                => (cleared, .error e)
      | .ok (validated, lastId) =>
        ({ cleared with isSynchronized := true, lastValidatedUpdateId := lastId }, .ok validated)

def synchronize (s : BinanceOrderbookSynchronizer) :
    BinanceOrderbookSynchronizer × Except String (List Value) :=
  match s.snapshot with
  | none          => (s, .error "No snapshot available for synchronization")
  | some snapshot => s.synchronizeWith snapshot

def validateEvent (s : BinanceOrderbookSynchronizer) (event : BufferedDepthEvent) :
    BinanceOrderbookSynchronizer × Bool :=
  if ¬ s.isSynchronized then (s, false)
  else
    match event.prevUpdateId with
    | some pu =>
      if pu ≠ s.lastValidatedUpdateId then ({ s with isSynchronized := false }, false)
      else ({ s with lastValidatedUpdateId := event.finalUpdateId }, true)
    -- without `pu` every event passes, whatever its ids
    | none => ({ s with lastValidatedUpdateId := event.finalUpdateId }, true)

def needsSync (s : BinanceOrderbookSynchronizer) : Bool := !s.isSynchronized

end BinanceOrderbookSynchronizer
end Feed
end TradingPlatform
