import TradingPlatform.Json.Value
import TradingPlatform.Library.Assoc
import TradingPlatform.Library.Average
import TradingPlatform.Logger.Flush
import TradingPlatform.Rust.Text

/-!
# `Logger.Aggregator` — the metrics that are counted from logs

`process_log` writes an entry and counts it for its exchange; `flush_metrics` takes everything out of the map and
writes it, metrics by metrics, up to the first error. What was not written by then is gone with the map. And the
average of a latency is halved with every value. So the metrics are exact only if no flush fails before metrics that
count something, and if the latencies of each batch happen to balance (`metrics_exact_iff`).

The order of the map and the outcomes of the writer are inputs of a call.
-/

namespace TradingPlatform
namespace Logger

open Json Rust Machine Average

inductive LogLevel where
  | error
  | warn
  | info
  | debug
  | trace
deriving DecidableEq

/-- The fields that are counted from. -/
structure LogEntry where
  level    : LogLevel
  exchange : Option String
  message  : String
  metadata : List (String × Value)

/-- A numeric `latency_ms`. -/
def LogEntry.latency? (entry : LogEntry) : Option ℚ := (entry.metadata.lookup "latency_ms").bind Value.asF64?

structure LogMetrics where
  timestamp         : Int
  exchange          : String
  errorCount        : Nat
  warnCount         : Nat
  avgLatencyMs      : Option ℚ
  connectionDrops   : Nat
  reconnectAttempts : Nat
  messagesProcessed : Nat
deriving DecidableEq

namespace LogMetrics

def new (now : Int) (exchange : String) : LogMetrics where
  timestamp         := now
  exchange          := exchange
  errorCount        := 0
  warnCount         := 0
  avgLatencyMs      := none
  connectionDrops   := 0
  reconnectAttempts := 0
  messagesProcessed := 0

/-- The metrics with an entry of their exchange. -/
def record (m : LogMetrics) (entry : LogEntry) : LogMetrics :=
  { m with
    errorCount := if entry.level = .error then m.errorCount + 1 else m.errorCount
    warnCount  := if entry.level = .warn then m.warnCount + 1 else m.warnCount
    avgLatencyMs :=
      match entry.latency? with
      | some latVal => some ((m.avgLatencyMs.getD 0 + latVal) / 2)
      | none        => m.avgLatencyMs
    connectionDrops :=
      if contains entry.message "connection dropped" || contains entry.message "disconnected" then
        m.connectionDrops + 1
      else m.connectionDrops
    reconnectAttempts :=
      if contains entry.message "reconnect" || contains entry.message "retrying" then m.reconnectAttempts + 1
      else m.reconnectAttempts }

end LogMetrics

structure LogAggregator where
  currentMetrics : List (String × LogMetrics)

/-- The order in which the map is drained. -/
structure DrainOrder where
  visit : List (String × LogMetrics) → List (String × LogMetrics)
  perm  : ∀ entries, (visit entries).Perm entries

/-- A call, with the time and with what the writer makes of it. -/
inductive AggregatorCall where
  | processLog (now : Int) (entry : LogEntry) (written : Bool)
  | flushMetrics (order : DrainOrder) (outcomes : Outcomes)

/-- What the writer has written. -/
inductive Line where
  | log (entry : LogEntry)
  | metrics (m : LogMetrics)

def Line.log? : Line → Option LogEntry
  | .log entry => some entry
  | .metrics _ => none

def Line.metrics? : Line → Option LogMetrics
  | .log _     => none
  | .metrics m => some m

/-- The writes of a flush, up to the first that fails, and whether all succeed. -/
def writeMetrics (write : Nat → Bool) : List LogMetrics → List LogMetrics × Bool
  | []        => ([], true)
  | m :: rest =>
    if write 0 then
      let (written, ok) := writeMetrics (fun k => write (k + 1)) rest
      (m :: written, ok)
    else ([], false)

/-- The metrics whose write fails, and those behind them. -/
def unwrittenMetrics (write : Nat → Bool) : List LogMetrics → List LogMetrics
  | []        => []
  | m :: rest => if write 0 then unwrittenMetrics (fun k => write (k + 1)) rest else m :: rest

namespace LogAggregator

def new : LogAggregator := ⟨[]⟩

/-- The metrics of the exchange, with the entry. -/
def count (a : LogAggregator) (now : Int) (exchange : String) (entry : LogEntry) : LogAggregator :=
  let metrics := (a.currentMetrics.lookup exchange).getD (.new now exchange)
  { a with currentMetrics := Assoc.put exchange (metrics.record entry) a.currentMetrics }

/-- Also returns whether it was `Ok`. -/
def processLog (a : LogAggregator) (now : Int) (entry : LogEntry) (written : Bool) : LogAggregator × Bool :=
  if written then
    match entry.exchange with
    | some exchange => (a.count now exchange entry, true)
    | none          => (a, true)
  else (a, false)

/-- Also returns what was written, and whether it was `Ok`. The map is empty afterwards, whatever happened. -/
def flushMetrics (a : LogAggregator) (order : DrainOrder) (outcomes : Outcomes) :
    LogAggregator × List LogMetrics × Bool :=
  let (written, ok) := writeMetrics outcomes.write ((order.visit a.currentMetrics).map Prod.snd)
  ({ a with currentMetrics := [] }, written, ok && outcomes.flush)

def step (a : LogAggregator) : AggregatorCall → LogAggregator × List Line
  | .processLog now entry written => ((a.processLog now entry written).1, if written then [.log entry] else [])
  | .flushMetrics order outcomes  =>
    ((a.flushMetrics order outcomes).1, (a.flushMetrics order outcomes).2.1.map .metrics)

def isOk (a : LogAggregator) : AggregatorCall → Bool
  | .processLog now entry written => (a.processLog now entry written).2
  | .flushMetrics order outcomes  => (a.flushMetrics order outcomes).2.2

/-- The metrics a call takes out of the map without writing them. -/
def unwritten (a : LogAggregator) : AggregatorCall → List LogMetrics
  | .processLog ..               => []
  | .flushMetrics order outcomes => unwrittenMetrics outcomes.write ((order.visit a.currentMetrics).map Prod.snd)

def held (a : LogAggregator) : List LogMetrics := a.currentMetrics.map Prod.snd

end LogAggregator

/-! ## What the metrics are to be -/

/-- The sum of a counter over the metrics of an exchange. -/
def tally (counter : LogMetrics → Nat) (exchange : String) (ms : List LogMetrics) : Nat :=
  ((ms.filter fun m => m.exchange = exchange).map counter).sum

/-- The number of entries of an exchange at a level. -/
def countAt (level : LogLevel) (exchange : String) (entries : List LogEntry) : Nat :=
  entries.countP fun entry => entry.exchange = some exchange ∧ entry.level = level

/-- The numeric latencies of an exchange. -/
def latencies (exchange : String) (entries : List LogEntry) : List ℚ :=
  (entries.filter fun entry => entry.exchange = some exchange).filterMap LogEntry.latency?

def linesMetrics (lines : List Line) : List LogMetrics := lines.filterMap Line.metrics?

def linesLogs (lines : List Line) : List LogEntry := lines.filterMap Line.log?

/-- A call adds an entry to those written since the last flush, or flushes. -/
def addEntry (entries : List LogEntry) : AggregatorCall → List LogEntry
  | .processLog _ entry written => if written then entries ++ [entry] else entries
  | .flushMetrics ..            => []

/-- The entries written since the last flush. -/
def sinceFlush (calls : List AggregatorCall) : List LogEntry := calls.foldl addEntry []

/-! ## What the map holds -/

section Entries

variable {level : LogLevel} {exchange : String} {entries : List LogEntry} {entry : LogEntry}

theorem countAt_append (level : LogLevel) (exchange : String) (entries entries' : List LogEntry) :
    countAt level exchange (entries ++ entries') = countAt level exchange entries + countAt level exchange entries' :=
  List.countP_append

theorem countAt_of_none (h : ∀ entry ∈ entries, entry.exchange ≠ some exchange) :
    countAt level exchange entries = 0 := by
  unfold countAt
  rw [List.countP_eq_zero]
  intro entry hentry hmine
  exact h entry hentry (of_decide_eq_true hmine).1

/-- The entry counts at its own level. -/
theorem countAt_concat (h : entry.exchange = some exchange) (level : LogLevel) (entries : List LogEntry) :
    countAt level exchange (entries ++ [entry]) =
      if entry.level = level then countAt level exchange entries + 1 else countAt level exchange entries := by
  have hone : countAt level exchange [entry] = if entry.level = level then 1 else 0 := by
    unfold countAt
    rw [List.countP_singleton]
    by_cases hlevel : entry.level = level
    · rw [if_pos hlevel, if_pos (decide_eq_true ⟨h, hlevel⟩)]
    · rw [if_neg hlevel, if_neg fun hmine => hlevel (of_decide_eq_true hmine).2]
  rw [countAt_append, hone]
  split <;> rfl

theorem countAt_concat_other (h : entry.exchange ≠ some exchange) (level : LogLevel) (entries : List LogEntry) :
    countAt level exchange (entries ++ [entry]) = countAt level exchange entries := by
  have hnone : ∀ e ∈ [entry], e.exchange ≠ some exchange := by
    intro e he
    rwa [List.mem_singleton.mp he]
  rw [countAt_append, countAt_of_none hnone, Nat.add_zero]

theorem latencies_of_none (h : ∀ entry ∈ entries, entry.exchange ≠ some exchange) :
    latencies exchange entries = [] := by
  have hnone : entries.filter (fun entry => entry.exchange = some exchange) = [] := by
    rw [List.filter_eq_nil_iff]
    intro entry hentry hmine
    exact h entry hentry (of_decide_eq_true hmine)
  unfold latencies
  rw [hnone]
  rfl

theorem latencies_concat (h : entry.exchange = some exchange) (entries : List LogEntry) :
    latencies exchange (entries ++ [entry]) = latencies exchange entries ++ entry.latency?.toList := by
  have hmine : [entry].filter (fun entry => entry.exchange = some exchange) = [entry] :=
    List.filter_cons_of_pos (decide_eq_true h)
  unfold latencies
  rw [List.filter_append, List.filterMap_append, hmine]
  rfl

theorem latencies_concat_other (h : entry.exchange ≠ some exchange) (entries : List LogEntry) :
    latencies exchange (entries ++ [entry]) = latencies exchange entries := by
  have hnone : [entry].filter (fun entry => entry.exchange = some exchange) = [] :=
    List.filter_cons_of_neg fun hmine => h (of_decide_eq_true hmine)
  unfold latencies
  rw [List.filter_append, hnone, List.append_nil]

end Entries

section Tally

variable {counter : LogMetrics → Nat} {exchange : String} {m : LogMetrics} {ms ms' : List LogMetrics}

theorem tally_append (counter : LogMetrics → Nat) (exchange : String) (ms ms' : List LogMetrics) :
    tally counter exchange (ms ++ ms') = tally counter exchange ms + tally counter exchange ms' := by
  unfold tally
  rw [List.filter_append, List.map_append, List.sum_append]

theorem tally_cons (h : m.exchange = exchange) (ms : List LogMetrics) :
    tally counter exchange (m :: ms) = counter m + tally counter exchange ms := by
  unfold tally
  rw [List.filter_cons_of_pos (by exact decide_eq_true h), List.map_cons, List.sum_cons]

theorem tally_cons_other (h : m.exchange ≠ exchange) (ms : List LogMetrics) :
    tally counter exchange (m :: ms) = tally counter exchange ms := by
  unfold tally
  rw [List.filter_cons_of_neg (by exact fun hmine => h (of_decide_eq_true hmine))]

theorem tally_perm (h : ms.Perm ms') : tally counter exchange ms = tally counter exchange ms' :=
  ((h.filter _).map _).sum_eq

/-- Nothing is counted exactly if none of the metrics counts anything. -/
theorem tally_eq_zero_iff : tally counter exchange ms = 0 ↔ ∀ m ∈ ms, m.exchange = exchange → counter m = 0 := by
  unfold tally
  rw [List.sum_eq_zero_iff_forall_eq_nat, List.forall_mem_map]
  simp only [List.mem_filter, decide_eq_true_eq, and_imp]

/-- In a map with the metrics under the names of their exchanges, an exchange has those that are found for it. -/
theorem tally_map {entries : List (String × LogMetrics)} (hkeys : (entries.map Prod.fst).Nodup)
    (hnamed : ∀ e ∈ entries, e.2.exchange = e.1) (counter : LogMetrics → Nat) (exchange : String) :
    tally counter exchange (entries.map Prod.snd) = ((entries.lookup exchange).map counter).getD 0 := by
  induction entries with
  | nil => rfl
  | cons e es ih =>
      obtain ⟨hnew, hkeys'⟩ := List.nodup_cons.mp hkeys
      obtain ⟨hname, hnamed'⟩ := List.forall_mem_cons.mp hnamed
      have hrest := ih hkeys' hnamed'
      by_cases hmine : exchange = e.1
      · have hgone : es.lookup exchange = none := by
          rw [List.lookup_eq_none_iff]
          intro e' he'
          rw [bne_iff_ne, hmine]
          intro heq
          exact hnew (heq ▸ List.mem_map_of_mem he')
        have hfound : (e :: es).lookup exchange = some e.2 := by
          rw [hmine]
          exact List.lookup_cons_self
        rw [List.map_cons, tally_cons (hname.trans hmine.symm), hrest, hgone, hfound]
        rfl
      · have hnot : (exchange == e.1) = false := beq_eq_false_iff_ne.mpr hmine
        rw [List.map_cons, tally_cons_other fun heq => hmine (heq.symm.trans hname), hrest, List.lookup_cons, hnot]

end Tally

/-- The metrics count these entries of the exchange. -/
structure Covers (m : LogMetrics) (exchange : String) (entries : List LogEntry) : Prop where
  owner    : m.exchange = exchange
  errors   : m.errorCount = countAt .error exchange entries
  warnings : m.warnCount = countAt .warn exchange entries
  average  : m.avgLatencyMs = halved (latencies exchange entries)

section Covers

variable {m : LogMetrics} {exchange : String} {entries : List LogEntry} {entry : LogEntry}

theorem Covers.new (h : ∀ entry ∈ entries, entry.exchange ≠ some exchange) (now : Int) :
    Covers (.new now exchange) exchange entries where
  owner    := rfl
  errors   := (countAt_of_none h).symm
  warnings := (countAt_of_none h).symm
  average  := by
    rw [latencies_of_none h]
    rfl

/-- **One entry of the exchange.** -/
theorem Covers.record (h : Covers m exchange entries) (hentry : entry.exchange = some exchange) :
    Covers (m.record entry) exchange (entries ++ [entry]) where
  owner    := h.owner
  errors   := by
    rw [countAt_concat hentry, ← h.errors]
    rfl
  warnings := by
    rw [countAt_concat hentry, ← h.warnings]
    rfl
  average  := by
    rw [latencies_concat hentry, LogMetrics.record, h.average]
    cases entry.latency? with
    | none => rw [Option.toList_none, List.append_nil]
    | some latVal => exact (halved_concat ..).symm

/-- Entries of others, and those of none, do not count. -/
theorem Covers.other (h : Covers m exchange entries) (hentry : entry.exchange ≠ some exchange) :
    Covers m exchange (entries ++ [entry]) where
  owner    := h.owner
  errors   := h.errors.trans (countAt_concat_other hentry ..).symm
  warnings := h.warnings.trans (countAt_concat_other hentry ..).symm
  average  := by
    rw [latencies_concat_other hentry]
    exact h.average

end Covers

namespace LogAggregator

/-- The map has the metrics of each exchange that has entries. -/
structure Summarises (a : LogAggregator) (entries : List LogEntry) : Prop where
  keys    : (a.currentMetrics.map Prod.fst).Nodup
  covers  : ∀ exchange, ∀ m ∈ a.currentMetrics.lookup exchange, Covers m exchange entries
  missing : ∀ exchange, a.currentMetrics.lookup exchange = none → ∀ entry ∈ entries, entry.exchange ≠ some exchange

theorem Summarises.new : Summarises new [] where
  keys    := List.nodup_nil
  covers  := nofun
  missing := fun _ _ => nofun

theorem Summarises.count {a : LogAggregator} {entries : List LogEntry} (h : a.Summarises entries) (now : Int)
    {exchange : String} {entry : LogEntry} (hentry : entry.exchange = some exchange) :
    (a.count now exchange entry).Summarises (entries ++ [entry]) := by
  have hother : ∀ other, other ≠ exchange → entry.exchange ≠ some other := by
    intro other hne heq
    rw [hentry] at heq
    exact hne (Option.some.inj heq).symm
  refine ⟨Assoc.nodup_put h.keys exchange _, ?_, ?_⟩
  · intro other m hm
    by_cases hsame : other = exchange
    · subst hsame
      unfold LogAggregator.count at hm
      rw [Assoc.lookup_put_self, Option.mem_some_iff] at hm
      subst hm
      cases hlookup : a.currentMetrics.lookup other with
      | none => exact (Covers.new (h.missing other hlookup) now).record hentry
      | some before => exact (h.covers other before hlookup).record hentry
    · unfold LogAggregator.count at hm
      rw [Assoc.lookup_put_ne hsame] at hm
      exact (h.covers other m hm).other (hother other hsame)
  · intro other hnone e he
    by_cases hsame : other = exchange
    · subst hsame
      unfold LogAggregator.count at hnone
      rw [Assoc.lookup_put_self] at hnone
      cases hnone
    · unfold LogAggregator.count at hnone
      rw [Assoc.lookup_put_ne hsame] at hnone
      rcases List.mem_append.mp he with he | he
      · exact h.missing other hnone e he
      · rw [List.mem_singleton.mp he]
        exact hother other hsame

theorem Summarises.processLog {a : LogAggregator} {entries : List LogEntry} (h : a.Summarises entries) (now : Int)
    (entry : LogEntry) (written : Bool) :
    (a.processLog now entry written).1.Summarises (addEntry entries (.processLog now entry written)) := by
  cases written with
  | false => exact h
  | true =>
      show (match entry.exchange with
        | some exchange => (a.count now exchange entry, true)
        | none          => (a, true)).1.Summarises (entries ++ [entry])
      cases hentry : entry.exchange with
      | some exchange => exact h.count now hentry
      | none =>
          have hnobody : ∀ exchange, entry.exchange ≠ some exchange := by
            intro exchange heq
            rw [hentry] at heq
            cases heq
          refine ⟨h.keys, fun exchange m hm => (h.covers exchange m hm).other (hnobody exchange), ?_⟩
          intro exchange hnone e he
          rcases List.mem_append.mp he with he | he
          · exact h.missing exchange hnone e he
          · rw [List.mem_singleton.mp he]
            exact hnobody exchange

theorem Summarises.step {a : LogAggregator} {entries : List LogEntry} (h : a.Summarises entries)
    (call : AggregatorCall) : (a.step call).1.Summarises (addEntry entries call) := by
  cases call with
  | processLog now entry written => exact h.processLog now entry written
  | flushMetrics order outcomes => exact Summarises.new

/-- **The map tells what was written since the last flush**, in every run. -/
theorem Summarises.run {a : LogAggregator} {entries : List LogEntry} (h : a.Summarises entries)
    (calls : List AggregatorCall) :
    (Machine.run LogAggregator.step a calls).1.Summarises (calls.foldl addEntry entries) := by
  induction calls generalizing a entries with
  | nil => exact h
  | cons call calls ih => exact ih (h.step call)

theorem Summarises.named {a : LogAggregator} {entries : List LogEntry} (h : a.Summarises entries) :
    ∀ e ∈ a.currentMetrics, e.2.exchange = e.1 := by
  intro e he
  exact (h.covers e.1 e.2 ((Assoc.lists_lookup h.keys e.1 e.2).mp he)).owner

/-- **What is held counts the entries since the last flush.** -/
theorem Summarises.tally_held {a : LogAggregator} {entries : List LogEntry} (h : a.Summarises entries)
    {counter : LogMetrics → Nat} {level : LogLevel}
    (hcounter : ∀ m exchange entries, Covers m exchange entries → counter m = countAt level exchange entries)
    (exchange : String) : tally counter exchange a.held = countAt level exchange entries := by
  rw [held, tally_map h.keys h.named]
  cases hlookup : a.currentMetrics.lookup exchange with
  | none => exact (countAt_of_none (h.missing exchange hlookup)).symm
  | some m => exact hcounter m exchange entries (h.covers exchange m hlookup)

end LogAggregator

/-! ## Flushes -/

/-- A flush writes the first of the metrics, and leaves out the others only if it fails. -/
theorem writeMetrics_append_unwritten (write : Nat → Bool) (ms : List LogMetrics) :
    (writeMetrics write ms).1 ++ unwrittenMetrics write ms = ms := by
  induction ms generalizing write with
  | nil => rfl
  | cons m ms ih =>
      unfold writeMetrics unwrittenMetrics
      split
      · exact congrArg (m :: ·) (ih _)
      · rfl

theorem unwrittenMetrics_of_ok {write : Nat → Bool} {ms : List LogMetrics} (h : (writeMetrics write ms).2 = true) :
    unwrittenMetrics write ms = [] := by
  induction ms generalizing write with
  | nil => rfl
  | cons m ms ih =>
      unfold writeMetrics at h
      unfold unwrittenMetrics
      split at h
      next hwrite =>
        rw [if_pos hwrite]
        exact ih h
      next => cases h

namespace LogAggregator

variable {a : LogAggregator} {entries : List LogEntry}

/-- **The ledger of one call**: what it loses is in the metrics it leaves unwritten. -/
theorem Summarises.balance (h : a.Summarises entries) {counter : LogMetrics → Nat} {level : LogLevel}
    (hcounter : ∀ m exchange entries, Covers m exchange entries → counter m = countAt level exchange entries)
    (exchange : String) (call : AggregatorCall) :
    tally counter exchange (linesMetrics (a.step call).2) + tally counter exchange (a.step call).1.held
        + tally counter exchange (a.unwritten call)
      = tally counter exchange a.held + countAt level exchange (linesLogs (a.step call).2) := by
  have hnext := (h.step call).tally_held hcounter exchange
  have hheld := h.tally_held hcounter exchange
  rw [hnext, hheld]
  cases call with
  | processLog now entry written =>
      cases written with
      | false => exact Nat.zero_add _
      | true =>
          show 0 + countAt level exchange (entries ++ [entry]) + 0 = _
          rw [countAt_append, Nat.zero_add]
          rfl
  | flushMetrics order outcomes =>
      have hlines : linesMetrics (a.step (.flushMetrics order outcomes)).2 =
          (writeMetrics outcomes.write ((order.visit a.currentMetrics).map Prod.snd)).1 := by
        show ((writeMetrics _ _).1.map Line.metrics).filterMap Line.metrics? = _
        rw [List.filterMap_map]
        exact List.filterMap_some
      have hlogs : linesLogs (a.step (.flushMetrics order outcomes)).2 = [] := by
        show ((writeMetrics _ _).1.map Line.metrics).filterMap Line.log? = []
        rw [List.filterMap_map]
        exact List.filterMap_eq_nil_iff.mpr fun _ _ => rfl
      have hall : tally counter exchange ((order.visit a.currentMetrics).map Prod.snd) =
          countAt level exchange entries := by
        rw [← hheld]
        exact tally_perm ((order.perm _).map _)
      rw [hlines, hlogs, ← hall]
      show _ + 0 + tally counter exchange (unwrittenMetrics _ _) = _ + 0
      rw [Nat.add_zero, Nat.add_zero, ← tally_append, writeMetrics_append_unwritten]

/-! ## Counts -/

/-- What is written and what is held count the entries that were written. -/
structure CountsExact (calls : List AggregatorCall) : Prop where
  errors   : ∀ exchange, tally LogMetrics.errorCount exchange (linesMetrics (run step new calls).2)
      + tally LogMetrics.errorCount exchange (run step new calls).1.held
    = countAt .error exchange (linesLogs (run step new calls).2)
  warnings : ∀ exchange, tally LogMetrics.warnCount exchange (linesMetrics (run step new calls).2)
      + tally LogMetrics.warnCount exchange (run step new calls).1.held
    = countAt .warn exchange (linesLogs (run step new calls).2)

/-- Metrics that are left unwritten count no errors and no warnings. -/
def LosesNothing (a : LogAggregator) (call : AggregatorCall) : Prop :=
  ∀ m ∈ a.unwritten call, m.errorCount = 0 ∧ m.warnCount = 0

/-- The map tells some entries: what all states of a run have in common. -/
def Reached (a : LogAggregator) : Prop := ∃ entries, a.Summarises entries

theorem reached_new : new.Reached := ⟨[], Summarises.new⟩

theorem reached_step (h : a.Reached) (call : AggregatorCall) : (a.step call).1.Reached :=
  ⟨_, h.choose_spec.step call⟩

/-- A counter is exact for an exchange if no call loses any of it. -/
theorem counter_exact_iff {counter : LogMetrics → Nat} {level : LogLevel}
    (hcounter : ∀ m exchange entries, Covers m exchange entries → counter m = countAt level exchange entries)
    (exchange : String) (calls : List AggregatorCall) :
    tally counter exchange (linesMetrics (run step new calls).2) + tally counter exchange (run step new calls).1.held
        = countAt level exchange (linesLogs (run step new calls).2) ↔
      Guarded step (fun a call => tally counter exchange (a.unwritten call) = 0) new calls := by
  have hpaid : ∀ xs ys, tally counter exchange (linesMetrics (xs ++ ys)) =
      tally counter exchange (linesMetrics xs) + tally counter exchange (linesMetrics ys) := by
    intro xs ys
    rw [linesMetrics, List.filterMap_append]
    exact tally_append ..
  have hbooked : ∀ xs ys, countAt level exchange (linesLogs (xs ++ ys)) =
      countAt level exchange (linesLogs xs) + countAt level exchange (linesLogs ys) := by
    intro xs ys
    rw [linesLogs, List.filterMap_append]
    exact countAt_append ..
  have hbalance : ∀ (a : LogAggregator) (call : AggregatorCall), a.Reached →
      tally counter exchange (linesMetrics (a.step call).2) + tally counter exchange (a.step call).1.held
          + tally counter exchange (a.unwritten call)
        = tally counter exchange a.held + countAt level exchange (linesLogs (a.step call).2) := by
    rintro a call ⟨entries, h⟩
    exact h.balance hcounter exchange call
  have hledger := @run_balance_iff _ _ _ step Reached (fun a => tally counter exchange a.held)
    (fun lines => tally counter exchange (linesMetrics lines)) (fun lines => countAt level exchange (linesLogs lines))
    (fun a call => tally counter exchange (a.unwritten call)) hpaid hbooked (fun _ call h => reached_step h call)
    hbalance new reached_new calls
  have hempty : tally counter exchange new.held = 0 := rfl
  rw [hempty, Nat.zero_add] at hledger
  exact hledger.2

theorem counts_exact_iff (calls : List AggregatorCall) :
    CountsExact calls ↔ Guarded step LosesNothing new calls := by
  have herrors := counter_exact_iff (fun _ _ _ h => h.errors)
  have hwarnings := counter_exact_iff (fun _ _ _ h => h.warnings)
  constructor
  · intro h
    rw [guarded_iff_points]
    intro done call hdone m hm
    have herror := guarded_iff_points.mp ((herrors m.exchange calls).mp (h.errors _)) done call hdone
    have hwarning := guarded_iff_points.mp ((hwarnings m.exchange calls).mp (h.warnings _)) done call hdone
    exact ⟨tally_eq_zero_iff.mp herror m hm rfl, tally_eq_zero_iff.mp hwarning m hm rfl⟩
  · intro h
    refine ⟨fun exchange => (herrors exchange calls).mpr ?_, fun exchange => (hwarnings exchange calls).mpr ?_⟩
    · exact h.imp fun _ _ hloss => tally_eq_zero_iff.mpr fun m hm _ => (hloss m hm).1
    · exact h.imp fun _ _ hloss => tally_eq_zero_iff.mpr fun m hm _ => (hloss m hm).2

/-! ## Means -/

/-- All calls return `Ok`. -/
def AllOk (calls : List AggregatorCall) : Prop := Guarded step (fun a call => a.isOk call = true) new calls

/-- Every flush writes the means of the latencies since the flush before it. -/
def MeansExact (calls : List AggregatorCall) : Prop :=
  ∀ done order outcomes, done ++ [.flushMetrics order outcomes] <+: calls →
    ∀ m ∈ ((run step new done).1.flushMetrics order outcomes).2.1,
      m.avgLatencyMs = mean (latencies m.exchange (sinceFlush done))

/-- At every flush the latencies of each exchange balance. -/
def BatchesBalance (calls : List AggregatorCall) : Prop :=
  ∀ done order outcomes, done ++ [.flushMetrics order outcomes] <+: calls →
    ∀ exchange, Balanced (latencies exchange (sinceFlush done))

/-- A flush that succeeds writes everything that is held. -/
theorem mem_written_iff {order : DrainOrder} {outcomes : Outcomes}
    (hok : a.isOk (.flushMetrics order outcomes) = true) {m : LogMetrics} :
    m ∈ (a.flushMetrics order outcomes).2.1 ↔ m ∈ a.held := by
  have hwrite : (writeMetrics outcomes.write ((order.visit a.currentMetrics).map Prod.snd)).2 = true :=
    (Bool.and_eq_true_iff.mp hok).1
  have hwritten := writeMetrics_append_unwritten outcomes.write ((order.visit a.currentMetrics).map Prod.snd)
  rw [unwrittenMetrics_of_ok hwrite, List.append_nil] at hwritten
  show m ∈ (writeMetrics _ _).1 ↔ _
  rw [hwritten]
  exact ((order.perm _).map _).mem_iff

theorem means_exact_iff {calls : List AggregatorCall} (hok : AllOk calls) :
    MeansExact calls ↔ BatchesBalance calls := by
  have hpoint : ∀ done order outcomes, done ++ [.flushMetrics order outcomes] <+: calls →
      ((∀ m ∈ ((run step new done).1.flushMetrics order outcomes).2.1,
        m.avgLatencyMs = mean (latencies m.exchange (sinceFlush done))) ↔
      ∀ exchange, Balanced (latencies exchange (sinceFlush done))) := by
    intro done order outcomes hdone
    have hsummary : (run step new done).1.Summarises (sinceFlush done) := Summarises.new.run done
    have hwritten := fun m => @mem_written_iff _ order outcomes (guarded_iff_points.mp hok done _ hdone) m
    constructor
    · intro hmeans exchange
      rw [← halved_eq_mean_iff]
      cases hlookup : (run step new done).1.currentMetrics.lookup exchange with
      | none =>
          -- there are no entries, and no latencies
          rw [latencies_of_none (hsummary.missing exchange hlookup)]
          rfl
      | some m =>
          have hcovers := hsummary.covers exchange m hlookup
          have hheld : m ∈ (run step new done).1.held := List.mem_map_of_mem (Assoc.mem_of_lookup hlookup)
          have hmean := hmeans m ((hwritten m).mpr hheld)
          rwa [hcovers.average, hcovers.owner] at hmean
    · intro hbalanced m hm
      obtain ⟨e, he, rfl⟩ := List.mem_map.mp ((hwritten m).mp hm)
      have hcovers := hsummary.covers e.1 e.2 ((Assoc.lists_lookup hsummary.keys e.1 e.2).mp he)
      rw [hcovers.average, hcovers.owner, halved_eq_mean_iff]
      exact hbalanced e.1
  unfold MeansExact BatchesBalance
  constructor
  · intro h done order outcomes hdone
    exact (hpoint done order outcomes hdone).mp (h done order outcomes hdone)
  · intro h done order outcomes hdone
    exact (hpoint done order outcomes hdone).mpr (h done order outcomes hdone)

/-- Equal latencies, however many, are not averaged right, unless they are 0. -/
theorem not_meansExact_of_equal {done : List AggregatorCall} {order : DrainOrder} {outcomes : Outcomes}
    (hok : AllOk (done ++ [.flushMetrics order outcomes])) {exchange : String} {n : Nat} {latency : ℚ}
    (hbatch : latencies exchange (sinceFlush done) = List.replicate n latency) (hn : n ≠ 0) (hlatency : latency ≠ 0) :
    ¬ MeansExact (done ++ [.flushMetrics order outcomes]) := by
  intro hmeans
  have hbalanced := (means_exact_iff hok).mp hmeans done order outcomes (List.prefix_refl _) exchange
  rw [hbatch, balanced_replicate_iff] at hbalanced
  exact hbalanced.elim hn hlatency

/-! ## Exact metrics -/

/-- Exact counts in every run, and exact means in a run in which all calls succeed. -/
structure MetricsExact (calls : List AggregatorCall) : Prop where
  counts : CountsExact calls
  means  : AllOk calls → MeansExact calls

/-- **Which runs have exact metrics**: those whose failing flushes leave nothing but metrics without errors and
    warnings, and, where all calls succeed, those in which the latencies of each batch balance. -/
theorem metrics_exact_iff (calls : List AggregatorCall) :
    MetricsExact calls ↔ Guarded step LosesNothing new calls ∧ (AllOk calls → BatchesBalance calls) := by
  constructor
  · intro h
    exact ⟨(counts_exact_iff calls).mp h.counts, fun hok => (means_exact_iff hok).mp (h.means hok)⟩
  · rintro ⟨hcounts, hmeans⟩
    exact ⟨(counts_exact_iff calls).mpr hcounts, fun hok => (means_exact_iff hok).mpr (hmeans hok)⟩

/-! ## Two runs -/

def keepOrder : DrainOrder := ⟨id, fun _ => List.Perm.refl _⟩

def allWrites : Outcomes := ⟨fun _ => true, true⟩

def noWrites : Outcomes := ⟨fun _ => false, true⟩

def orderRejected : LogEntry := ⟨.error, some "Binance", "order rejected", []⟩

def tenMs : LogEntry := ⟨.info, some "Binance", "order accepted", [("latency_ms", .ofNat 10)]⟩

/-- An error is written, the flush fails, and the one after it has nothing to write. -/
def failedFlush : List AggregatorCall :=
  [.processLog 0 orderRejected true, .flushMetrics keepOrder noWrites, .flushMetrics keepOrder allWrites]

/-- One latency is written, and flushed. -/
def oneLatency : List AggregatorCall := [.processLog 0 tenMs true, .flushMetrics keepOrder allWrites]

/-- The error is in no metrics, written or held; and 10 ms are 5 on average. -/
theorem failedFlush_loses :
    ¬ MetricsExact failedFlush ∧ ¬ MetricsExact oneLatency ∧
    linesMetrics (run step new failedFlush).2 = [] ∧ (run step new failedFlush).1.held = [] ∧
    countAt .error "Binance" (linesLogs (run step new failedFlush).2) = 1 ∧
    (linesMetrics (run step new oneLatency).2).map LogMetrics.avgLatencyMs = [some 5] ∧
    mean (latencies "Binance" [tenMs]) = some 10 := by
  have hwritten : linesMetrics (run step new failedFlush).2 = [] := by decide +kernel
  have hheld : (run step new failedFlush).1.held = [] := by decide +kernel
  have hcount : countAt .error "Binance" (linesLogs (run step new failedFlush).2) = 1 := by decide +kernel
  refine ⟨fun h => ?_, fun h => ?_, hwritten, hheld, hcount, by decide +kernel, by decide +kernel⟩
  · have herrors := h.counts.errors "Binance"
    rw [hwritten, hheld, hcount] at herrors
    exact absurd herrors (by decide)
  · have hok : AllOk oneLatency := by
      unfold AllOk
      decide +kernel
    have hmeans := h.means hok [.processLog 0 tenMs true] keepOrder allWrites (List.prefix_refl _)
    exact absurd hmeans (by decide +kernel)

end LogAggregator

end Logger
end TradingPlatform
