import TradingPlatform.Library.Machine
import Mathlib.Data.List.Nodup
import Mathlib.Data.Rat.Defs

/-!
# `Logger.Flush` — the buffers of the feeder logger

Entries wait in four buffers. A flush of one hands them to QuestDB entry by entry and returns at the first error;
the buffer is cleared at the end, when everything has succeeded. So a flush that fails on the way leaves entries in
the buffer that were handed over, and the next one hands them over again (`exactlyOnce_iff`).

A call of `log_connection_event` is a push and a flush, a call of `flush_all` up to four flushes. A flush keeps
its buffer locked, and calls of several tasks interleave between pushes and flushes: a run is a sequence of these.
-/

namespace TradingPlatform
namespace Logger

open Machine

/-! ## Entries -/

/-- Connection event types for tracking WebSocket lifecycle. -/
inductive ConnectionEvent where
  | connected
  | disconnected (reason : String)
  | reconnecting (attempt : UInt32)
  | replaced (reason : String)
  | rateLimited (retryAfterMs : UInt64)
  | error (error : String)
  | subscriptionSuccess (symbols : List String)
  | subscriptionFailure (error : String)
  | streamCreated (symbolsCount : Int32)
  | streamTaken (elapsedMs : UInt64)
  | streamStarted (symbolsCount : Int32)
  | streamDropped (status : String) (elapsedMs : UInt64) (symbolsCount : Int32)
deriving DecidableEq

structure ConnectionEventEntry where
  exchange     : String
  connectionId : String
  event        : ConnectionEvent
deriving DecidableEq

structure PerformanceMetrics where
  exchange          : String
  activeConnections : UInt32
  messagesPerSecond : ℚ
  avgLatencyMs      : ℚ
  memoryUsageMb     : ℚ
  cpuUsagePercent   : ℚ
deriving DecidableEq

structure ErrorLog where
  component : String
  errorType : String
  message   : String
  /-- as the JSON it is written as -/
  context   : String
deriving DecidableEq

structure ProcessingStats where
  exchange          : String
  dataType          : String
  messagesReceived  : UInt64
  messagesProcessed : UInt64
  messagesDropped   : UInt64
deriving DecidableEq

/-- The buffers. -/
inductive Table where
  | connectionEvents
  | performance
  | errors
  | processing
deriving DecidableEq

inductive Entry where
  | connection (entry : ConnectionEventEntry)
  | performance (metrics : PerformanceMetrics)
  | error (error : ErrorLog)
  | processing (stats : ProcessingStats)
deriving DecidableEq

def Entry.table : Entry → Table
  | .connection _  => .connectionEvents
  | .performance _ => .performance
  | .error _       => .errors
  | .processing _  => .processing

/-! ## What is handed over -/

/-- A write call of the QuestDB client. -/
inductive Write where
  | connectionLogWithAttempt (exchange connectionId eventType status : String) (errorMsg : Option String)
      (attempt : Option UInt32)
  | performanceLog (exchange : String) (cpuUsage memoryMb : ℚ) (websocketCount : UInt32) (dataRate latencyMs : ℚ)
  | errorLog (level module : String) (errorCode : Option String) (message : String) (context : Option String)
  | statsLog (exchange dataType : String) (messagesReceived messagesProcessed droppedCount : UInt64)
deriving DecidableEq

/-- Event type, status, message and attempt of a connection event. -/
def ConnectionEvent.columns : ConnectionEvent → String × String × Option String × Option UInt32
  | .connected                => ("connected", "success", none, some 1)
  | .disconnected reason      => ("disconnected", "error", some reason, none)
  | .reconnecting attempt     => ("reconnecting", "pending", none, some attempt)
  | .replaced reason          => ("replaced", "warning", some reason, none)
  | .rateLimited retryAfterMs => ("rate_limited", "warning", some s!"retry_after_{retryAfterMs}ms", none)
  | .error message            => ("error", "error", some message, none)
  | .subscriptionSuccess symbols =>
    ("subscription", "success", some s!"{symbols.length}_symbols", none)
  | .subscriptionFailure message => ("subscription", "error", some message, none)
  | .streamCreated symbolsCount =>
    ("stream_created", "success", some s!"stream_created_with_{symbolsCount}_symbols", some symbolsCount.toUInt32)
  | .streamTaken elapsedMs => ("stream_taken", "success", some s!"stream_taken_after_{elapsedMs}ms", none)
  | .streamStarted symbolsCount =>
    ("stream_started", "success", some s!"stream_started_processing_{symbolsCount}_symbols",
      some symbolsCount.toUInt32)
  | .streamDropped status elapsedMs symbolsCount =>
    ("stream_dropped", "success",
      some s!"stream_dropped_status_{status}_lived_{elapsedMs}ms_symbols_{symbolsCount}", some symbolsCount.toUInt32)

def Entry.write : Entry → Write
  | .connection event =>
    let (eventType, status, errorMsg, attempt) := event.event.columns
    .connectionLogWithAttempt event.exchange event.connectionId eventType status errorMsg attempt
  | .performance metric =>
    .performanceLog metric.exchange metric.cpuUsagePercent metric.memoryUsageMb metric.activeConnections
      metric.messagesPerSecond metric.avgLatencyMs
  | .error log =>
    .errorLog log.errorType log.component (some log.errorType) log.message (some log.context)
  | .processing stat =>
    .statsLog stat.exchange stat.dataType stat.messagesReceived stat.messagesProcessed stat.messagesDropped

/-! ## Flushing -/

/-- Which calls of a flush succeed: its writes, by number, and the flush of the client. -/
structure Outcomes where
  write : Nat → Bool
  flush : Bool

/-- The writes for these entries up to the first that fails, and whether all succeed. An entry is known by its
    number among all that were logged. -/
def writeAll (write : Nat → Bool) : List (Nat × Entry) → List (Nat × Write) × Bool
  | []                 => ([], true)
  | (i, entry) :: rest =>
    if write 0 then
      let (lines, ok) := writeAll (fun k => write (k + 1)) rest
      ((i, entry.write) :: lines, ok)
    else ([], false)

structure FeederLogger where
  buffers : Table → List (Nat × Entry)
  /-- everything logged so far -/
  logged  : List Entry
  /-- everything handed over so far -/
  questdb : List (Nat × Write)

namespace FeederLogger

def new : FeederLogger := { buffers := fun _ => [], logged := [], questdb := [] }

def push (logger : FeederLogger) (entry : Entry) : FeederLogger :=
  { logger with
    buffers := Function.update logger.buffers entry.table
      (logger.buffers entry.table ++ [(logger.logged.length, entry)])
    logged  := logger.logged ++ [entry] }

/-- What the four flush functions do to their buffer, and whether they return `Ok`. -/
def flushBuffer (logger : FeederLogger) (table : Table) (outcomes : Outcomes) : FeederLogger × Bool :=
  if logger.buffers table = [] then (logger, true)
  else
    let (lines, ok) := writeAll outcomes.write (logger.buffers table)
    if ok && outcomes.flush then
      ({ logger with buffers := Function.update logger.buffers table [], questdb := logger.questdb ++ lines }, true)
    else ({ logger with questdb := logger.questdb ++ lines }, false)

def flushConnectionEvents (logger : FeederLogger) (outcomes : Outcomes) : FeederLogger × Bool :=
  logger.flushBuffer .connectionEvents outcomes

def flushPerformanceMetrics (logger : FeederLogger) (outcomes : Outcomes) : FeederLogger × Bool :=
  logger.flushBuffer .performance outcomes

def flushErrors (logger : FeederLogger) (outcomes : Outcomes) : FeederLogger × Bool :=
  logger.flushBuffer .errors outcomes

def flushProcessingStats (logger : FeederLogger) (outcomes : Outcomes) : FeederLogger × Bool :=
  logger.flushBuffer .processing outcomes

def flush (logger : FeederLogger) (outcomes : Outcomes) : Table → FeederLogger × Bool
  | .connectionEvents => logger.flushConnectionEvents outcomes
  | .performance      => logger.flushPerformanceMetrics outcomes
  | .errors           => logger.flushErrors outcomes
  | .processing       => logger.flushProcessingStats outcomes

end FeederLogger

inductive Action where
  | push (entry : Entry)
  | flush (table : Table) (outcomes : Outcomes)

/-- A flush returns whether it was `Ok`. -/
def step (logger : FeederLogger) : Action → FeederLogger × List Bool
  | .push entry           => (logger.push entry, [])
  | .flush table outcomes => ((logger.flush outcomes table).1, [(logger.flush outcomes table).2])

/-- The calls of one task, as long as the flushes before succeed. -/
def logConnectionEvent (entry : ConnectionEventEntry) (outcomes : Outcomes) : List Action :=
  [.push (.connection entry), .flush .connectionEvents outcomes]

def flushAllFrom (logger : FeederLogger) (outcomes : Table → Outcomes) : List Table → List Action
  | []              => []
  | table :: tables =>
    let (next, ok) := logger.flush (outcomes table) table
    .flush table (outcomes table) :: if ok then flushAllFrom next outcomes tables else []

def flushAll (logger : FeederLogger) (outcomes : Table → Outcomes) : List Action :=
  flushAllFrom logger outcomes [.connectionEvents, .performance, .errors, .processing]

/-! ## Exactly once -/

namespace FeederLogger

/-- The entries handed over, by number. -/
def handed (logger : FeederLogger) : List Nat := logger.questdb.map Prod.fst

/-- Nothing is handed over twice, and what was not handed over is in its buffer. -/
structure ExactlyOnce (logger : FeederLogger) : Prop where
  atMostOnce : logger.handed.Nodup
  kept       : ∀ i entry, logger.logged[i]? = some entry →
    i ∈ logger.handed ∨ (i, entry) ∈ logger.buffers entry.table

end FeederLogger

/-- A flush whose first write succeeds starts with an entry that was not handed over. -/
def Fresh (logger : FeederLogger) : Action → Prop
  | .push _               => True
  | .flush table outcomes => outcomes.write 0 = true → ∀ first ∈ (logger.buffers table).head?, first.1 ∉ logger.handed

/-! ## One flush -/

/-- The writes are for the first entries of the buffer, for all of them if they succeed. -/
theorem writeAll_spec (write : Nat → Bool) (entries : List (Nat × Entry)) :
    ∃ written rest, entries = written ++ rest ∧ (writeAll write entries).1.map Prod.fst = written.map Prod.fst ∧
      ((writeAll write entries).2 = true → rest = []) ∧ (write 0 = false → written = []) ∧
      (write 0 = true → entries ≠ [] → written ≠ []) := by
  induction entries generalizing write with
  | nil => exact ⟨[], [], rfl, rfl, fun _ => rfl, fun _ => rfl, fun _ hne => absurd rfl hne⟩
  | cons first entries ih =>
      obtain ⟨i, entry⟩ := first
      unfold writeAll
      cases hfirst : write 0 with
      | false => exact ⟨[], _, rfl, rfl, nofun, fun _ => rfl, nofun⟩
      | true =>
          obtain ⟨written, rest, heq, hlines, hok, -, -⟩ := ih fun k => write (k + 1)
          exact ⟨(i, entry) :: written, rest, congrArg _ heq, congrArg (i :: ·) hlines, hok, nofun,
            fun _ _ => List.cons_ne_nil _ _⟩

/-- **One flush** hands over the first entries of its buffer; the buffer stays as it is or is handed over whole. -/
theorem flush_spec (logger : FeederLogger) (table : Table) (outcomes : Outcomes) :
    ∃ written rest, logger.buffers table = written ++ rest ∧
      (logger.flush outcomes table).1.handed = logger.handed ++ written.map Prod.fst ∧
      (logger.flush outcomes table).1.logged = logger.logged ∧
      (∀ table', (logger.flush outcomes table).1.buffers table' = logger.buffers table' ∨
        table' = table ∧ rest = [] ∧ (logger.flush outcomes table).1.buffers table' = []) ∧
      (outcomes.write 0 = false → written = []) ∧
      (outcomes.write 0 = true → logger.buffers table ≠ [] → written ≠ []) := by
  have hflush : logger.flush outcomes table = logger.flushBuffer table outcomes := by cases table <;> rfl
  obtain ⟨written, rest, heq, hlines, hok, hnone, hsome⟩ := writeAll_spec outcomes.write (logger.buffers table)
  have hhanded : ∀ buffers : Table → List (Nat × Entry), ({ logger with
      buffers := buffers
      questdb := logger.questdb ++ (writeAll outcomes.write (logger.buffers table)).1 } : FeederLogger).handed =
        logger.handed ++ written.map Prod.fst := by
    intro buffers
    rw [FeederLogger.handed, List.map_append, hlines]
    rfl
  rw [hflush, FeederLogger.flushBuffer]
  by_cases hnil : logger.buffers table = []
  · rw [if_pos hnil]
    rw [hnil] at heq
    obtain ⟨rfl, rfl⟩ := List.append_eq_nil_iff.mp heq.symm
    exact ⟨[], [], hnil, (List.append_nil _).symm, rfl, fun _ => .inl rfl, hnone, fun _ hne => absurd hnil hne⟩
  rw [if_neg hnil]
  dsimp only
  by_cases hall : ((writeAll outcomes.write (logger.buffers table)).2 && outcomes.flush) = true
  · rw [if_pos hall]
    refine ⟨written, rest, heq, hhanded _, rfl, fun table' => ?_, hnone, hsome⟩
    by_cases htable : table' = table
    · rw [htable]
      exact .inr ⟨rfl, hok (Bool.and_eq_true_iff.mp hall).1, Function.update_self ..⟩
    · exact .inl (Function.update_of_ne htable ..)
  · rw [if_neg hall]
    exact ⟨written, rest, heq, hhanded _, rfl, fun _ => .inl rfl, hnone, hsome⟩

/-! ## What every run keeps -/

/-- The numbers tell the entries apart, and what was handed over of a buffer is at its front. -/
structure Inv (logger : FeederLogger) : Prop where
  known    : ∀ table, ∀ e ∈ logger.buffers table, logger.logged[e.1]? = some e.2 ∧ e.2.table = table
  numbered : ∀ table, ((logger.buffers table).map Prod.fst).Nodup
  bounded  : ∀ i ∈ logger.handed, i < logger.logged.length
  front    : ∀ table, (logger.buffers table).Pairwise fun a b => b.1 ∈ logger.handed → a.1 ∈ logger.handed
  kept     : ∀ i entry, logger.logged[i]? = some entry →
    i ∈ logger.handed ∨ (i, entry) ∈ logger.buffers entry.table

theorem Inv.new : Inv .new := ⟨fun _ => nofun, fun _ => List.nodup_nil, nofun, fun _ => .nil, nofun⟩

theorem Inv.lt {logger : FeederLogger} (h : Inv logger) {table : Table} {e : Nat × Entry}
    (he : e ∈ logger.buffers table) : e.1 < logger.logged.length :=
  (List.getElem?_eq_some_iff.mp (h.known table e he).1).1

/-- An entry with the number of another is that entry. -/
theorem Inv.eq {logger : FeederLogger} (h : Inv logger) {table table' : Table} {e e' : Nat × Entry}
    (he : e ∈ logger.buffers table) (he' : e' ∈ logger.buffers table') (heq : e.1 = e'.1) : e = e' := by
  have hentry := (h.known table e he).1
  rw [heq, (h.known table' e' he').1] at hentry
  exact Prod.ext heq (Option.some.inj hentry).symm

/-- A buffer with a pushed entry: as it was, or with the entry at its end. -/
theorem buffers_push (logger : FeederLogger) (entry : Entry) (table : Table) :
    (logger.push entry).buffers table = logger.buffers table ∨
      entry.table = table ∧
        (logger.push entry).buffers table = logger.buffers table ++ [(logger.logged.length, entry)] := by
  by_cases htable : table = entry.table
  · subst htable
    exact .inr ⟨rfl, Function.update_self ..⟩
  · exact .inl (Function.update_of_ne htable ..)

theorem subset_buffers_push (logger : FeederLogger) (entry : Entry) (table : Table) :
    logger.buffers table ⊆ (logger.push entry).buffers table := by
  rcases buffers_push logger entry table with hsame | ⟨-, hmore⟩
  · exact hsame ▸ List.Subset.refl _
  · exact hmore ▸ List.subset_append_left _ _

/-- The entry itself is in its buffer, under the next number. -/
theorem mem_buffers_push (logger : FeederLogger) (entry : Entry) :
    (logger.logged.length, entry) ∈ (logger.push entry).buffers entry.table := by
  have hmore : (logger.push entry).buffers entry.table =
      logger.buffers entry.table ++ [(logger.logged.length, entry)] := Function.update_self ..
  rw [hmore]
  exact List.mem_append_right _ (List.mem_singleton.mpr rfl)

theorem mem_push {logger : FeederLogger} {entry : Entry} {table : Table} {e : Nat × Entry}
    (he : e ∈ (logger.push entry).buffers table) :
    e ∈ logger.buffers table ∨ entry.table = table ∧ e = (logger.logged.length, entry) := by
  rcases buffers_push logger entry table with hsame | ⟨htable, hmore⟩
  · exact .inl (hsame ▸ he)
  · rw [hmore, List.mem_append, List.mem_singleton] at he
    exact he.imp_right fun heq => ⟨htable, heq⟩

/-- What holds of each pair of entries, and of each with the new one, holds of each pair after a push. -/
theorem pairwise_push {logger : FeederLogger} {entry : Entry} {table : Table} {R : Nat × Entry → Nat × Entry → Prop}
    (h : (logger.buffers table).Pairwise R) (hnew : ∀ e ∈ logger.buffers table, R e (logger.logged.length, entry)) :
    ((logger.push entry).buffers table).Pairwise R := by
  rcases buffers_push logger entry table with hsame | ⟨-, hmore⟩
  · exact hsame ▸ h
  · rw [hmore]
    refine List.pairwise_append.mpr ⟨h, List.pairwise_singleton .., ?_⟩
    intro e he e' he'
    rw [List.mem_singleton.mp he']
    exact hnew e he

/-- **A push** keeps the invariant: the new number is that of no other entry, and was not handed over. -/
theorem Inv.push {logger : FeederLogger} (h : Inv logger) (entry : Entry) : Inv (logger.push entry) := by
  have hnew : logger.logged.length ∉ logger.handed := fun hmem => Nat.lt_irrefl _ (h.bounded _ hmem)
  refine ⟨fun table e he => ?_, fun table => ?_, fun i hi => ?_, fun table => ?_, fun i e he => ?_⟩
  · show (logger.logged ++ [entry])[e.1]? = some e.2 ∧ e.2.table = table
    rcases mem_push he with hold | ⟨htable, rfl⟩
    · rw [List.getElem?_append_left (h.lt hold)]
      exact h.known table e hold
    · exact ⟨List.getElem?_concat_length, htable⟩
  · refine List.pairwise_map.mpr (pairwise_push (List.pairwise_map.mp (h.numbered table)) fun e he => ?_)
    exact Nat.ne_of_lt (h.lt he)
  · show i < (logger.logged ++ [entry]).length
    rw [List.length_append]
    exact Nat.lt_add_right _ (h.bounded i hi)
  · exact pairwise_push (h.front table) fun _ _ hhanded => absurd hhanded hnew
  · have hget : (logger.logged ++ [entry])[i]? = some e := he
    rcases Nat.lt_trichotomy i logger.logged.length with hlt | heq | hgt
    · rw [List.getElem?_append_left hlt] at hget
      exact (h.kept i e hget).imp_right fun hmem => subset_buffers_push logger entry e.table hmem
    · rw [heq, List.getElem?_concat_length] at hget
      obtain rfl := Option.some.inj hget
      rw [heq]
      exact .inr (mem_buffers_push logger entry)
    · have hlt := (List.getElem?_eq_some_iff.mp hget).1
      rw [List.length_append, List.length_singleton] at hlt
      omega

/-- Numbers of the first entries of a buffer are numbers of no others. -/
theorem Inv.mem_written {logger : FeederLogger} (h : Inv logger) {table table' : Table}
    {written rest : List (Nat × Entry)} (hsplit : logger.buffers table = written ++ rest) {e : Nat × Entry}
    (he : e ∈ logger.buffers table') (hmem : e.1 ∈ written.map Prod.fst) : e ∈ written := by
  obtain ⟨w, hw, hnumber⟩ := List.mem_map.mp hmem
  have hwbuffer : w ∈ logger.buffers table := hsplit ▸ List.mem_append_left _ hw
  rw [← h.eq hwbuffer he hnumber]
  exact hw

/-- What was handed over stays at the front when the first entries of a buffer are handed over. -/
theorem Inv.front_append {logger : FeederLogger} (h : Inv logger) {table : Table} {written rest : List (Nat × Entry)}
    (hsplit : logger.buffers table = written ++ rest) (table' : Table) :
    (logger.buffers table').Pairwise fun (a b : Nat × Entry) =>
      b.1 ∈ logger.handed ++ written.map Prod.fst → a.1 ∈ logger.handed ++ written.map Prod.fst := by
  have hout : ∀ a b : Nat × Entry, b ∈ logger.buffers table' → b ∉ written → (b.1 ∈ logger.handed → a.1 ∈ logger.handed) →
      b.1 ∈ logger.handed ++ written.map Prod.fst → a.1 ∈ logger.handed ++ written.map Prod.fst := by
    intro a b hb hnot hold hmem
    rcases List.mem_append.mp hmem with hmem | hmem
    · exact List.mem_append_left _ (hold hmem)
    · exact absurd (h.mem_written hsplit hb hmem) hnot
  by_cases htable : table' = table
  · subst htable
    have hin : ∀ w ∈ written, w.1 ∈ logger.handed ++ written.map Prod.fst := fun w hw =>
      List.mem_append_right _ (List.mem_map_of_mem hw)
    have hnodup := List.Nodup.of_map _ (h.numbered table')
    have hold := h.front table'
    rw [hsplit] at hnodup hold hout ⊢
    obtain ⟨-, hrest, -⟩ := List.pairwise_append.mp hold
    have hdisjoint := List.disjoint_of_nodup_append hnodup
    refine List.pairwise_append.mpr ⟨?_, ?_, fun a ha b _ _ => hin a ha⟩
    · exact List.pairwise_of_forall_mem_list fun a ha b _ _ => hin a ha
    · exact hrest.imp_of_mem fun _ hb hab =>
        hout _ _ (List.mem_append_right _ hb) (fun hw => hdisjoint hw hb) hab
  · refine (h.front table').imp_of_mem fun _ hb hab => hout _ _ hb (fun hw => htable ?_) hab
    have hwbuffer := hsplit ▸ List.mem_append_left rest hw
    rw [← (h.known table' _ hb).2, (h.known table _ hwbuffer).2]

theorem Inv.flush {logger : FeederLogger} (h : Inv logger) (table : Table) (outcomes : Outcomes) :
    Inv (logger.flush outcomes table).1 := by
  obtain ⟨written, rest, hsplit, hhanded, hlogged, hbuffers, -, -⟩ := flush_spec logger table outcomes
  refine ⟨?_, ?_, ?_, ?_, ?_⟩
  · intro table' e he
    rw [hlogged]
    rcases hbuffers table' with hsame | ⟨-, -, hclear⟩
    · exact h.known table' e (hsame ▸ he)
    · rw [hclear] at he
      exact absurd he List.not_mem_nil
  · intro table'
    rcases hbuffers table' with hsame | ⟨-, -, hclear⟩
    · rw [hsame]
      exact h.numbered table'
    · rw [hclear]
      exact List.nodup_nil
  · intro i hi
    rw [hlogged]
    rw [hhanded] at hi
    rcases List.mem_append.mp hi with hi | hi
    · exact h.bounded i hi
    · obtain ⟨w, hw, rfl⟩ := List.mem_map.mp hi
      have hwbuffer : w ∈ logger.buffers table := hsplit ▸ List.mem_append_left rest hw
      exact h.lt hwbuffer
  · intro table'
    rcases hbuffers table' with hsame | ⟨-, -, hclear⟩
    · rw [hsame, hhanded]
      exact h.front_append hsplit table'
    · rw [hclear]
      exact .nil
  · intro i entry hentry
    rw [hlogged] at hentry
    rw [hhanded]
    rcases h.kept i entry hentry with hmem | hmem
    · exact .inl (List.mem_append_left _ hmem)
    rcases hbuffers entry.table with hsame | ⟨htable, hnil, -⟩
    · rw [hsame]
      exact .inr hmem
    · rw [htable, hsplit, hnil, List.append_nil] at hmem
      exact .inl (List.mem_append_right _ (List.mem_map_of_mem hmem))

theorem Inv.step {logger : FeederLogger} (h : Inv logger) (action : Action) : Inv (step logger action).1 := by
  cases action with
  | push entry => exact h.push entry
  | flush table outcomes => exact h.flush table outcomes

/-! ## At most once -/

/-- **A flush hands over nothing again** exactly when its first write fails or is for an entry not handed over. -/
theorem Inv.flush_nodup_iff {logger : FeederLogger} (h : Inv logger) (hnodup : logger.handed.Nodup) (table : Table)
    (outcomes : Outcomes) :
    (logger.flush outcomes table).1.handed.Nodup ↔ Fresh logger (.flush table outcomes) := by
  obtain ⟨written, rest, hsplit, hhanded, -, -, hnone, hsome⟩ := flush_spec logger table outcomes
  rw [hhanded]
  cases written with
  | nil =>
      rw [List.map_nil, List.append_nil]
      refine iff_of_true hnodup fun hwrite first hfirst => ?_
      have hne : logger.buffers table ≠ [] := fun hnil => by
        rw [hnil] at hfirst
        exact Option.not_mem_none _ hfirst
      exact absurd rfl (hsome hwrite hne)
  | cons w written =>
      have hwrite : outcomes.write 0 = true :=
        Bool.not_eq_false _ ▸ fun hfalse => List.cons_ne_nil _ _ (hnone hfalse)
      have hhead : (logger.buffers table).head? = some w := by rw [hsplit, List.cons_append, List.head?_cons]
      constructor
      · intro hall _ first hfirst hmem
        rw [hhead] at hfirst
        obtain rfl := Option.some.inj hfirst
        exact (List.nodup_append.mp hall).2.2 _ hmem _ List.mem_cons_self rfl
      · intro hfresh
        have hw : w.1 ∉ logger.handed := hfresh hwrite w hhead
        have hnumbered := h.numbered table
        have hfront := h.front table
        rw [hsplit] at hnumbered hfront
        rw [List.map_append] at hnumbered
        refine List.nodup_append.mpr ⟨hnodup, (List.nodup_append.mp hnumbered).1, ?_⟩
        intro i hi j hj heq
        -- anything handed over later in the buffer means that its first entry was
        obtain ⟨e, he, rfl⟩ := List.mem_map.mp hj
        rw [heq] at hi
        rcases List.mem_cons.mp he with rfl | he
        · exact hw hi
        · rw [List.cons_append, List.pairwise_cons] at hfront
          exact hw (hfront.1 e (List.mem_append_left _ he) hi)

theorem handed_subset (logger : FeederLogger) (action : Action) :
    logger.handed <+: (step logger action).1.handed := by
  cases action with
  | push entry => exact List.prefix_rfl
  | flush table outcomes =>
      obtain ⟨written, -, -, hhanded, -⟩ := flush_spec logger table outcomes
      exact ⟨written.map Prod.fst, hhanded.symm⟩

theorem run_handed_extends (logger : FeederLogger) (actions : List Action) :
    logger.handed <+: (run step logger actions).1.handed := by
  induction actions generalizing logger with
  | nil => exact List.prefix_rfl
  | cons action actions ih => exact (handed_subset logger action).trans (ih _)

theorem Inv.run_nodup_iff {logger : FeederLogger} (h : Inv logger) (hnodup : logger.handed.Nodup)
    (actions : List Action) :
    (run Logger.step logger actions).1.handed.Nodup ↔ Guarded Logger.step Fresh logger actions := by
  induction actions generalizing logger with
  | nil => exact iff_of_true hnodup trivial
  | cons action actions ih =>
      have hstep : (Logger.step logger action).1.handed.Nodup ↔ Fresh logger action := by
        cases action with
        | push entry => exact iff_of_true hnodup trivial
        | flush table outcomes => exact h.flush_nodup_iff hnodup table outcomes
      constructor
      · intro hall
        have hnext : (Logger.step logger action).1.handed.Nodup :=
          hall.sublist (run_handed_extends _ actions).sublist
        exact ⟨hstep.mp hnext, (ih (h.step action) hnext).mp hall⟩
      · rintro ⟨hfresh, hguard⟩
        exact (ih (h.step action) (hstep.mpr hfresh)).mpr hguard

/-- **Flushing is exactly-once** in the runs whose flushes never start, with a write that succeeds, from an entry
    that was handed over before, and in no others. -/
theorem exactlyOnce_iff (actions : List Action) :
    (run step .new actions).1.ExactlyOnce ↔ Guarded step Fresh .new actions := by
  have hkept := (run_invariant (fun _ action h => h.step action) Inv.new actions).kept
  rw [← Inv.new.run_nodup_iff List.nodup_nil]
  exact ⟨fun h => h.atMostOnce, fun h => ⟨h, hkept⟩⟩

/-! ## A flush that fails at the end -/

def succeed : Outcomes := { write := fun _ => true, flush := true }

def failAtEnd : Outcomes := { write := fun _ => true, flush := false }

/-- A connection event whose flush fails after the write, then the periodic flush. -/
def retried : List Action :=
  logConnectionEvent ⟨"OKX", "okx-1", .connected⟩ failAtEnd ++
    flushAll (run step .new (logConnectionEvent ⟨"OKX", "okx-1", .connected⟩ failAtEnd)).1 fun _ => succeed

/-- The event is handed over twice. -/
theorem retried_twice : ¬ (run step .new retried).1.ExactlyOnce := by
  have htwice : ¬ (run step .new retried).1.handed.Nodup := by decide +kernel
  exact fun h => htwice h.atMostOnce

end Logger
end TradingPlatform
