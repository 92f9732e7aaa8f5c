import TradingPlatform.Library.Guards
import TradingPlatform.Logger.Flush

/-!
# `Logger.Locks` — the locks behind the calls of the feeder logger

A flush takes the lock of its buffer, and then that of the QuestDB client. `log_connection_event` drops its guard of
the buffer before it flushes; the other log functions flush a full buffer with their guard of it still in scope, and
wait for themselves. So the calls of a task return as long as none of them fills its buffer (`calls_return_iff`).
-/

namespace TradingPlatform
namespace Logger

open Guards Machine

inductive Lock where
  | buffer (table : Table)
  | questdb
deriving DecidableEq

namespace FeederLogger

/-- A flush function under the guards its caller holds. The result says whether it returned `Ok`. -/
def awaitFlush (held : List Lock) (logger : FeederLogger) (outcomes : Outcomes) (table : Table) :
    Option (FeederLogger × Bool) :=
  withGuard held (.buffer table) fun held =>
    if logger.buffers table = [] then some (logger, true)
    else withGuard held .questdb fun _ => some (logger.flush outcomes table)

/-- The guard of the buffer is dropped before the flush. -/
def logConnectionEvent (logger : FeederLogger) (entry : ConnectionEventEntry) (outcomes : Outcomes) :
    Option (FeederLogger × Bool) := do
  let pushed ← withGuard [] (Lock.buffer .connectionEvents) fun _ => some (logger.push (.connection entry))
  awaitFlush [] pushed outcomes .connectionEvents

/-- The other log functions: push, and flush a buffer that has reached its threshold, all in the scope of the guard. -/
def logBuffered (threshold : Nat) (logger : FeederLogger) (entry : Entry) (outcomes : Outcomes) :
    Option (FeederLogger × Bool) :=
  withGuard [] (.buffer entry.table) fun held =>
    let pushed := logger.push entry
    if (pushed.buffers entry.table).length ≥ threshold then awaitFlush held pushed outcomes entry.table
    else some (pushed, true)

def logPerformance (logger : FeederLogger) (metrics : PerformanceMetrics) (outcomes : Outcomes) :
    Option (FeederLogger × Bool) := logger.logBuffered 50 (.performance metrics) outcomes

def logError (logger : FeederLogger) (log : ErrorLog) (outcomes : Outcomes) : Option (FeederLogger × Bool) :=
  logger.logBuffered 50 (.error log) outcomes

def logProcessingStats (logger : FeederLogger) (stats : ProcessingStats) (outcomes : Outcomes) :
    Option (FeederLogger × Bool) := logger.logBuffered 100 (.processing stats) outcomes

/-- Flush these buffers in turn, until one flush fails. -/
def flushEach (logger : FeederLogger) (outcomes : Table → Outcomes) : List Table → Option (FeederLogger × Bool)
  | []              => some (logger, true)
  | table :: tables => do
    let (next, ok) ← awaitFlush [] logger (outcomes table) table
    if ok then next.flushEach outcomes tables else return (next, false)

def flushAll (logger : FeederLogger) (outcomes : Table → Outcomes) : Option (FeederLogger × Bool) :=
  logger.flushEach outcomes [.connectionEvents, .performance, .errors, .processing]

end FeederLogger

open FeederLogger

/-- A call of one task, with the outcomes of the QuestDB calls under it. -/
inductive LogCall where
  | connectionEvent (entry : ConnectionEventEntry) (outcomes : Outcomes)
  | performance (metrics : PerformanceMetrics) (outcomes : Outcomes)
  | error (log : ErrorLog) (outcomes : Outcomes)
  | processingStats (stats : ProcessingStats) (outcomes : Outcomes)
  | flushAll (outcomes : Table → Outcomes)

/-- The call; `none` never returns. -/
def LogCall.await (logger : FeederLogger) : LogCall → Option (FeederLogger × Bool)
  | .connectionEvent entry outcomes => logger.logConnectionEvent entry outcomes
  | .performance metrics outcomes   => logger.logPerformance metrics outcomes
  | .error log outcomes             => logger.logError log outcomes
  | .processingStats stats outcomes => logger.logProcessingStats stats outcomes
  | .flushAll outcomes              => logger.flushAll outcomes

/-- The call leaves its buffer below the threshold. -/
def LogCall.Fits (logger : FeederLogger) : LogCall → Prop
  | .connectionEvent _ _ => True
  | .performance _ _     => (logger.buffers .performance).length + 1 < 50
  | .error _ _           => (logger.buffers .errors).length + 1 < 50
  | .processingStats _ _ => (logger.buffers .processing).length + 1 < 100
  | .flushAll _          => True

/-! ## One call -/

/-- A flush returns unless its caller has the guard of its buffer. -/
theorem isSome_awaitFlush_iff {held : List Lock} (hquestdb : Lock.questdb ∉ held) (logger : FeederLogger)
    (outcomes : Outcomes) (table : Table) :
    (awaitFlush held logger outcomes table).isSome = true ↔ Lock.buffer table ∉ held := by
  unfold awaitFlush
  by_cases hheld : Lock.buffer table ∈ held
  · rw [withGuard_of_mem hheld]
    simp [hheld]
  · have hfree : Lock.questdb ∉ Lock.buffer table :: held := by simp [hquestdb]
    rw [withGuard_of_notMem hheld, withGuard_of_notMem hfree]
    split_ifs <;> simp [hheld]

theorem exists_awaitFlush (logger : FeederLogger) (outcomes : Outcomes) (table : Table) :
    ∃ next ok, awaitFlush [] logger outcomes table = some (next, ok) := by
  have hsome := (isSome_awaitFlush_iff List.not_mem_nil logger outcomes table).mpr List.not_mem_nil
  obtain ⟨⟨next, ok⟩, h⟩ := Option.isSome_iff_exists.mp hsome
  exact ⟨next, ok, h⟩

theorem isSome_logConnectionEvent (logger : FeederLogger) (entry : ConnectionEventEntry) (outcomes : Outcomes) :
    (logger.logConnectionEvent entry outcomes).isSome = true := by
  unfold FeederLogger.logConnectionEvent
  rw [withGuard_of_notMem List.not_mem_nil]
  exact (isSome_awaitFlush_iff List.not_mem_nil _ outcomes _).mpr List.not_mem_nil

theorem isSome_flushEach (logger : FeederLogger) (outcomes : Table → Outcomes) (tables : List Table) :
    (logger.flushEach outcomes tables).isSome = true := by
  induction tables generalizing logger with
  | nil => rfl
  | cons table tables ih =>
      obtain ⟨next, ok, hnext⟩ := exists_awaitFlush logger (outcomes table) table
      unfold flushEach
      rw [hnext]
      cases ok with
      | false => rfl
      | true => exact ih next

/-- A log function returns exactly if it leaves its buffer below the threshold. -/
theorem isSome_logBuffered_iff (threshold : Nat) (logger : FeederLogger) (entry : Entry) (outcomes : Outcomes) :
    (logger.logBuffered threshold entry outcomes).isSome = true ↔
      (logger.buffers entry.table).length + 1 < threshold := by
  have hlength : ((logger.push entry).buffers entry.table).length = (logger.buffers entry.table).length + 1 := by
    simp [FeederLogger.push]
  unfold logBuffered
  rw [withGuard_of_notMem List.not_mem_nil]
  dsimp only
  rw [hlength]
  split_ifs with hfull
  · -- the flush awaits the lock under the guard of its caller
    rw [isSome_awaitFlush_iff (by simp)]
    simp [hfull]
  · simpa using hfull

theorem isSome_await_iff (logger : FeederLogger) (call : LogCall) :
    (call.await logger).isSome = true ↔ call.Fits logger := by
  cases call with
  | connectionEvent entry outcomes => exact iff_of_true (isSome_logConnectionEvent logger entry outcomes) trivial
  | performance metrics outcomes   => exact isSome_logBuffered_iff 50 logger (.performance metrics) outcomes
  | error log outcomes             => exact isSome_logBuffered_iff 50 logger (.error log) outcomes
  | processingStats stats outcomes => exact isSome_logBuffered_iff 100 logger (.processing stats) outcomes
  | flushAll outcomes              => exact iff_of_true (isSome_flushEach logger outcomes _) trivial

/-! ## Sequences of calls -/

/-- **All calls of a task return** exactly if none of them brings its buffer to the threshold. -/
theorem calls_return_iff (logger : FeederLogger) (calls : List LogCall) :
    Returns LogCall.await logger calls ↔ Guarded (callStep LogCall.await) LogCall.Fits logger calls :=
  returns_iff isSome_await_iff

/-! ## A full buffer -/

def someMetrics : PerformanceMetrics :=
  { exchange := "binance", activeConnections := 1, messagesPerSecond := 100, avgLatencyMs := 1, memoryUsageMb := 50,
    cpuUsagePercent := 10 }

def allSucceed : Outcomes := { write := fun _ => true, flush := true }

/-- 49 calls return; the next one brings the buffer to 50 and never does. -/
theorem fiftieth_performance_call_waits :
    Returns LogCall.await .new (List.replicate 49 (.performance someMetrics allSucceed)) ∧
    ¬ Returns LogCall.await .new (List.replicate 50 (.performance someMetrics allSucceed)) := by
  unfold Returns
  decide +kernel

end Logger
end TradingPlatform
