import TradingPlatform.Library.Machine
import Mathlib.Algebra.Group.Nat.Defs
import Mathlib.Data.List.Nodup
import Mathlib.Logic.Function.Basic

/-!
# `Connection.Supervisor` — the task that keeps the sockets of one exchange connected

`spawn_*_exchange` runs `connect`, `subscribe` and `start` of its client in a loop. `start` takes the open streams
out of the map, hands each to a task of its own and waits until the counter of active connections is zero; a task
counts itself out when it leaves its loop. A task that panics does not.

The network and the scheduler are the inputs: `proceed` is the next step of the supervisor, with the outcome of the
call it awaits, and the other events are those of the tasks. They come in any order.
-/

namespace TradingPlatform
namespace Connection

variable {κ γ : Type*}

/-! ## Clients -/

/-- What `connect` does about a connection that fails. -/
inductive Retry where
  /-- try it until it succeeds (Binance, OKX, Upbit) -/
  | forever
  /-- leave it out after `max_retries` (Bybit, Coinbase, Deribit, Bithumb) -/
  | skip
deriving DecidableEq

/-- How a task leaves its loop. Only the clients that skip connections have a health check. -/
inductive Ending where
  | shutdown
  | pingFailed
  | healthCheckFailed
  | pongFailed
  | closed
  | error
  | streamEnded
deriving DecidableEq

/-- A client, as far as connecting goes. The keys of `ws_streams` are in the order of the map. -/
structure Client (κ γ : Type*) where
  keys : List κ
  nodup : keys.Nodup
  bounded : keys.length < 2 ^ 64
  /-- there is a URL for the asset type of the key -/
  accepts : κ → Bool
  retry : Retry
  /-- `subscribe` sends a message on every connection; Binance's fetches the snapshots instead -/
  announces : Bool
  /-- the entry of `CONNECTION_STATS` the key belongs to -/
  statsKey : κ → γ
  /-- the endings after which the task updates the entry -/
  records : Ending → Bool

def maxRetries : Nat := 5

/-! ## The state -/

/-- Where the supervisor is. The list is of the connections the loop has still to go through. -/
inductive Phase (κ : Type*) where
  | connecting (todo : List κ) (retryCount : Nat)
  | subscribing (todo : List κ)
  | fetchingSnapshots
  | starting (todo : List κ)
  | waiting
  | sleeping
deriving DecidableEq

structure ConnectionStats where
  connected        : Nat
  disconnected     : Nat
  totalConnections : Nat
deriving DecidableEq

def ConnectionStats.default : ConnectionStats := { connected := 0, disconnected := 0, totalConnections := 0 }

def ConnectionStats.opened (entry : ConnectionStats) : ConnectionStats :=
  { entry with connected := entry.connected + 1, totalConnections := entry.totalConnections + 1 }

def ConnectionStats.lost (entry : ConnectionStats) : ConnectionStats :=
  if entry.connected > 0 then
    { entry with connected := entry.connected - 1, disconnected := entry.disconnected + 1 }
  else entry

/-- The supervisor with the tasks it has spawned: those that run, and those that have panicked. -/
structure Supervisor (κ γ : Type*) where
  phase             : Phase κ
  /-- there is a stream under the key -/
  wsStreams         : κ → Bool
  activeConnections : Nat
  running           : List κ
  panicked          : List κ
  stats             : γ → ConnectionStats

inductive Event (κ : Type*) where
  | proceed (ok : Bool)
  | leaves (key : κ) (how : Ending)
  | panics (key : κ)

/-- What can be seen of a step: attempts to connect, subscriptions, streams handed to a task, and sockets closed,
    by the supervisor or with their task. -/
inductive Report (κ : Type*) where
  | attempted (key : κ) (ok : Bool)
  | subscribed (key : κ)
  | spawned (key : κ)
  | dropped (key : κ)
  | left (key : κ) (how : Ending)
  | crashed (key : κ)
deriving DecidableEq

namespace Supervisor

variable [DecidableEq κ] [DecidableEq γ]

def init (client : Client κ γ) : Supervisor κ γ where
  phase             := .connecting client.keys 0
  wsStreams         := fun _ => false
  activeConnections := 0
  running           := []
  panicked          := []
  stats             := fun _ => .default

/-- `fetch_add(1)` and `fetch_sub(1)` wrap around. -/
def fetchAdd (n : Nat) : Nat := if n + 1 < 2 ^ 64 then n + 1 else 0

def fetchSub (n : Nat) : Nat := if n = 0 then 2 ^ 64 - 1 else n - 1

/-- A new stream, or none, in the place of the one under the key. -/
def replace (s : Supervisor κ γ) (key : κ) (stream : Bool) : Supervisor κ γ × List (Report κ) :=
  ({ s with wsStreams := Function.update s.wsStreams key stream },
    if s.wsStreams key then [.dropped key] else [])

/-- One attempt of `connect` at the first key it has still to connect. -/
def attempt (client : Client κ γ) (s : Supervisor κ γ) (key : κ) (rest : List κ) (retryCount : Nat) (ok : Bool) :
    Supervisor κ γ × List (Report κ) :=
  if client.accepts key = false then
    match client.retry with
    | .forever => (s, [])
    | .skip    => ({ s with phase := .sleeping }, [])
  else if ok then
    let (s, dropped) := s.replace key true
    ({ s with
        phase := .connecting rest 0
        stats := Function.update s.stats (client.statsKey key) (s.stats (client.statsKey key)).opened },
      .attempted key true :: dropped)
  else match client.retry with
    | .forever => (s, [.attempted key false])
    | .skip    =>
        if retryCount + 1 > maxRetries then
          let (s, dropped) := s.replace key false
          ({ s with phase := .connecting rest 0 }, .attempted key false :: dropped)
        else ({ s with phase := .connecting (key :: rest) (retryCount + 1) }, [.attempted key false])

/-- `start` takes the stream out of the map and gives it to a task. -/
def spawn (s : Supervisor κ γ) (key : κ) (rest : List κ) : Supervisor κ γ × List (Report κ) :=
  if s.wsStreams key then
    ({ s with
        phase := .starting rest
        wsStreams := Function.update s.wsStreams key false
        activeConnections := fetchAdd s.activeConnections
        running := key :: s.running },
      [.spawned key])
  else ({ s with phase := .starting rest }, [])

/-- The next step of the `spawn_*_exchange` loop. -/
def proceed (client : Client κ γ) (s : Supervisor κ γ) (ok : Bool) : Supervisor κ γ × List (Report κ) :=
  match s.phase with
  | .connecting (key :: rest) retryCount => s.attempt client key rest retryCount ok
  | .connecting [] _ =>
      ({ s with phase := if client.announces then .subscribing client.keys else .fetchingSnapshots }, [])
  | .subscribing (key :: rest) =>
      if s.wsStreams key = false then ({ s with phase := .subscribing rest }, [])
      else if ok then ({ s with phase := .subscribing rest }, [.subscribed key])
      else ({ s with phase := .sleeping }, [])
  | .subscribing [] => ({ s with phase := .starting client.keys, activeConnections := 0 }, [])
  | .fetchingSnapshots =>
      if ok then ({ s with phase := .starting client.keys, activeConnections := 0 }, [])
      else ({ s with phase := .sleeping }, [])
  | .starting (key :: rest) => s.spawn key rest
  | .starting [] => ({ s with phase := .waiting }, [])
  | .waiting => if s.activeConnections > 0 then (s, []) else ({ s with phase := .sleeping }, [])
  | .sleeping => ({ s with phase := .connecting client.keys 0 }, [])

def step (client : Client κ γ) (s : Supervisor κ γ) : Event κ → Supervisor κ γ × List (Report κ)
  | .proceed ok => s.proceed client ok
  | .leaves key how =>
      if key ∈ s.running then
        ({ s with
            running := s.running.erase key
            activeConnections := fetchSub s.activeConnections
            stats :=
              if client.records how then
                Function.update s.stats (client.statsKey key) (s.stats (client.statsKey key)).lost
              else s.stats },
          [.left key how])
      else (s, [])
  | .panics key =>
      if key ∈ s.running then
        ({ s with running := s.running.erase key, panicked := key :: s.panicked }, [.crashed key])
      else (s, [])

end Supervisor
end Connection
end TradingPlatform
