import TradingPlatform.Library.FanIn
import TradingPlatform.Manager.OneBuilder
import TradingPlatform.Sender.Packet
import TradingPlatform.Rust.Float

/-!
# `Manager.Pipeline` — from the builders to the UDP sender, and shutting down

A builder sends the books it publishes into a channel of its own; a task wraps them and puts them into the channel of
the manager, which the consumer empties. Full channels are waited for, also by the builder, which handles no update
until its book is sent.

`shutdown` aborts the tasks of the builders in the map, each of which ends when it next waits. The handles stay in the
map. So what was published is consumed in order, or still on its way (`books_consumed_in_order`), and all of it can be
consumed (`books_can_be_consumed`); but a key whose builder has ended never gets another one, and every later update
for it fails (`ended_for_good`).
-/

namespace TradingPlatform
namespace Manager

open Market Rust Sender

/-! ## Data -/

/-- Built orderbook with metadata -/
structure BuiltOrderBook where
  exchange  : Exchange
  symbol    : String
  orderbook : OrderBook
  timestamp : Int
deriving DecidableEq

/-- `Exchange::as_str` -/
def asStr : Exchange → String
  | .binance        => "binance"
  | .binanceFutures => "binance-futures"
  | .bybit          => "bybit"
  | .bybitLinear    => "bybit-linear"
  | .upbit          => "upbit"
  | .coinbase       => "coinbase"
  | .okx            => "okx"
  | .deribit        => "deribit"
  | .bithumb        => "bithumb"
  | .lsExchange     => "ls-exchange"

/-- Convert to scaled i64 -/
def scaleLevel (level : PriceLevel) : Int × Int := (asI64 (level.price * 10 ^ 8), asI64 (level.quantity * 10 ^ 8))

/-- `UdpOrderBookSender::send_orderbook` -/
def BuiltOrderBook.orderbookData (built : BuiltOrderBook) : OrderBookData where
  exchange          := asStr built.exchange
  symbol            := built.symbol
  assetType         := "spot"
  bids              := built.orderbook.bids.map scaleLevel
  asks              := built.orderbook.asks.map scaleLevel
  pricePrecision    := 8
  quantityPrecision := 8
  timestamp         := i64AsU64 built.timestamp
  timestampUnit     := .milliseconds

/-- `mpsc::channel(10)` for the books of a builder. -/
def snapshotCapacity : Nat := 10

/-- The manager with its tasks. -/
structure Pipeline where
  system    : System
  books     : FanIn.State Nat OrderBook BuiltOrderBook
  /-- the consumer has taken the receiver -/
  consuming : Bool
  /-- a UDP sender is configured -/
  udpSender : Bool
  /-- `abort` has been called on the task of the builder -/
  aborted   : Nat → Bool
  /-- and it has ended -/
  cancelled : Nat → Bool

def Pipeline.new : Pipeline where
  system    := .new
  books     := .empty
  consuming := false
  udpSender := false
  aborted   := fun _ => false
  cancelled := fun _ => false

inductive PipelineAction where
  | manager (action : Action)
  /-- A book goes into the channel of its builder. -/
  | handOver (builder : Nat)
  /-- It is taken out and wrapped. -/
  | forward (builder : Nat) (now : Int)
  /-- It goes into the channel of the manager. -/
  | collect (builder : Nat)
  | consume
  | setUdpSender
  | startConsumer
  | shutdown
  /-- An aborted task ends. -/
  | cancel (builder : Nat)

inductive Report where
  | manager (effect : Effect)
  /-- The consumer has received this, and sends the data if a sender is configured. -/
  | consumed (builder : Nat) (built : BuiltOrderBook) (data : Option OrderBookData)

namespace Pipeline

/-! ## Steps -/

/-- The books a builder has published among these effects. -/
def publishedBy (b : Nat) (effects : List Effect) : List OrderBook :=
  effects.filterMap fun
    | .builder b' (.published book) => if b' = b then some book else none
    | _                             => none

def wrap (s : Pipeline) (b : Nat) (now : Int) (book : OrderBook) : BuiltOrderBook :=
  let key := s.system.keys.getD b (.binance, "")
  { exchange := key.1, symbol := key.2, orderbook := book, timestamp := now }

/-- What becomes of the books; the last channel is that of the manager. -/
def move (s : Pipeline) (action : FanIn.Action Nat OrderBook Int) : Pipeline × List Report :=
  let (books, items) := FanIn.step snapshotCapacity channelCapacity s.wrap s.books action
  ({ s with books },
    items.map fun (b, built) => .consumed b built (if s.udpSender then some built.orderbookData else none))

/-- The builder is in the map. -/
def stored (s : Pipeline) (b : Nat) : Bool := s.system.keys[b]?.any fun key => s.system.builders key = some b

/-- The task of a builder is dropped, and its receiver with it. -/
def endTask (system : System) (b : Nat) : System :=
  match system.spawned[b]? with
  | some task =>
      { system with spawned := system.spawned.set b { task with
          loop := { task.loop with running := false, closed := true } } }
  | none => system

/-- The builder waits until its book is sent. -/
def iterate (s : Pipeline) (b : Nat) (expired : Bool) : Pipeline × List Report :=
  if s.books.outbox b = [] then
    let (system, effects) := s.system.step (.step (.iterate b expired))
    (({ s with system : Pipeline }.move (.produce b (publishedBy b effects))).1, effects.map .manager)
  else (s, [])

def cancel (s : Pipeline) (b : Nat) : Pipeline :=
  if s.aborted b then
    { s with
      system    := endTask s.system b
      books     := (FanIn.step snapshotCapacity channelCapacity s.wrap s.books (.drop fun j => j = b)).1
      cancelled := Function.update s.cancelled b true }
  else s

def step (s : Pipeline) : PipelineAction → Pipeline × List Report
  | .manager (.step (.iterate b expired)) => s.iterate b expired
  | .manager action =>
      ({ s with system := (s.system.step action).1 }, (s.system.step action).2.map .manager)
  | .handOver b      => s.move (.handOver b)
  | .forward b now   => s.move (.forward b now)
  | .collect b       => s.move (.collect b)
  | .consume         => if s.consuming then s.move .consume else (s, [])
  | .setUdpSender    => ({ s with udpSender := true }, [])
  | .startConsumer   => ({ s with consuming := true }, [])
  | .shutdown        => ({ s with aborted := fun b => s.aborted b || s.stored b }, [])
  | .cancel b        => (s.cancel b, [])

end Pipeline

/-! ## Tasks that have ended -/

/-- The task has ended, and its receiver is gone. -/
def Ended (system : System) (b : Nat) : Prop :=
  ∃ task, system.spawned[b]? = some task ∧ task.loop.running = false ∧ task.loop.closed = true

theorem keys_prefix_step (system : System) (a : Action) : system.keys <+: (system.step a).1.keys := by
  rcases keys_step system a with h | ⟨call, -, h⟩
  · rw [h]
  · rw [h]
    exact List.prefix_append _ _

theorem length_keys (system : System) : system.keys.length = system.spawned.length := List.length_map _

theorem Ended.lt {system : System} {b : Nat} (h : Ended system b) : b < system.spawned.length := by
  obtain ⟨task, htask, -⟩ := h
  exact (List.getElem?_eq_some_iff.mp htask).1

/-- A task that is set anew, and ended before it was. -/
theorem Ended.set {system : System} {b b' : Nat} (h : Ended system b) {task : Spawned}
    (htask : system.spawned[b']? = some task) {loop : Builder.Loop} (hrunning : task.loop.running = false →
      loop.running = false) (hclosed : task.loop.closed = true → loop.closed = true) :
    Ended { system with spawned := system.spawned.set b' { task with loop := loop } } b := by
  obtain ⟨old, hold, hend⟩ := h
  by_cases hb : b' = b
  · subst hb
    obtain rfl := Option.some.inj (htask.symm.trans hold)
    have hlt := (List.getElem?_eq_some_iff.mp hold).1
    exact ⟨_, List.getElem?_set_self hlt, hrunning hend.1, hclosed hend.2⟩
  · exact ⟨old, (List.getElem?_set_ne hb).trans hold, hend⟩

theorem Ended.step {system : System} {b : Nat} (h : Ended system b) (a : Action) : Ended (system.step a).1 b := by
  have hmove := move_step system a
  generalize (system.step a).1 = system' at hmove
  generalize (system.step a).2 = out at hmove
  cases hmove with
  | created c request _ _ =>
      obtain ⟨task, htask, hend⟩ := h
      have hold : (system.spawn request.key).spawned[b]? = some task := by
        rw [System.spawn, List.getElem?_append_left (List.getElem?_eq_some_iff.mp htask).1]
        exact htask
      exact ⟨task, hold, hend⟩
  | sent c request b' update task _ _ htask => exact h.set htask id id
  | iterated b' expired task htask =>
      have hstays : task.loop.running = false → (Builder.loopStep task.loop (.iterate expired)).1 = task.loop :=
        fun hstopped => by rw [Builder.loopStep_stopped hstopped]
      obtain ⟨old, hold, hend⟩ := h
      by_cases hb : b' = b
      · subst hb
        obtain rfl := Option.some.inj (htask.symm.trans hold)
        exact ⟨_, List.getElem?_set_self (List.getElem?_eq_some_iff.mp hold).1, by rw [hstays hend.1]; exact hend⟩
      · exact ⟨old, (List.getElem?_set_ne hb).trans hold, hend⟩
  | closed b' task htask _ => exact h.set htask id fun _ => rfl
  | _ => exact h

theorem endTask_eq {system : System} {b : Nat} {task : Spawned} (h : system.spawned[b]? = some task) :
    Pipeline.endTask system b = { system with spawned := system.spawned.set b { task with
      loop := { task.loop with running := false, closed := true } } } := by
  unfold Pipeline.endTask
  rw [h]

theorem keys_endTask (system : System) (b : Nat) : (Pipeline.endTask system b).keys = system.keys := by
  unfold Pipeline.endTask
  split
  next task htask => exact keys_set htask _
  next => rfl

theorem Ended.endTask {system : System} {b : Nat} (h : Ended system b) (b' : Nat) :
    Ended (Pipeline.endTask system b') b := by
  unfold Pipeline.endTask
  split
  next task htask => exact h.set htask (fun _ => rfl) fun _ => rfl
  next => exact h

theorem ended_endTask {system : System} {b : Nat} (h : b < system.spawned.length) :
    Ended (Pipeline.endTask system b) b := by
  rw [endTask_eq (List.getElem?_eq_getElem h)]
  exact ⟨_, List.getElem?_set_self h, rfl, rfl⟩

/-! ## What an iteration publishes -/

def bookOf : Builder.Effect → Option OrderBook
  | .published book => some book
  | _               => none

theorem publishedBy_append (b : Nat) (effects later : List Effect) :
    Pipeline.publishedBy b (effects ++ later) = Pipeline.publishedBy b effects ++ Pipeline.publishedBy b later :=
  List.filterMap_append

theorem publishedBy_map (b b' : Nat) (es : List Builder.Effect) :
    Pipeline.publishedBy b (es.map (.builder b')) = if b' = b then es.filterMap bookOf else [] := by
  unfold Pipeline.publishedBy
  rw [List.filterMap_map]
  split_ifs with hb
  · refine List.filterMap_congr fun effect _ => ?_
    cases effect <;> simp [bookOf, hb]
  · refine List.filterMap_eq_nil_iff.mpr fun effect _ => ?_
    cases effect <;> simp [hb]

/-- Taking in an update publishes one book at most, -/
theorem length_books_handleUpdate (builder : Builder.OrderBookBuilder) (update : OrderBookUpdate) :
    ((builder.handleUpdate update).2.filterMap bookOf).length ≤ 1 := by
  unfold Builder.OrderBookBuilder.handleUpdate
  split
  · unfold Builder.OrderBookBuilder.handleBufferingUpdate
    dsimp only
    split_ifs
    · exact Nat.zero_le _
    · exact Nat.zero_le _
  · split_ifs
    · exact Nat.zero_le _
    · exact Nat.le_refl 1
    · exact Nat.zero_le _
  · exact Nat.zero_le _

/-- and so does what it does without one. -/
theorem length_books_advance (builder : Builder.OrderBookBuilder) (expired : Bool) :
    ((builder.advance expired).2.filterMap bookOf).length ≤ 1 := by
  unfold Builder.OrderBookBuilder.advance
  split
  · exact Nat.zero_le _
  · split_ifs
    · exact Nat.zero_le _
    · exact Nat.zero_le _
    · exact Nat.zero_le _
  · split_ifs
    · exact Nat.zero_le _
    · split
      · split_ifs
        · exact Nat.zero_le _
        · exact Nat.zero_le _
      · exact Nat.zero_le _
  · -- the buffered updates are applied, and then the book is published
    dsimp only
    rw [List.filterMap_append, List.filterMap_map]
    exact Nat.le_of_eq (by simp [Function.comp_def, bookOf])
  · exact Nat.zero_le _
  · split_ifs
    · exact Nat.zero_le _
    · exact Nat.zero_le _
  · split_ifs
    · exact Nat.zero_le _
    · exact Nat.zero_le _

theorem length_books_loopStep (loop : Builder.Loop) (expired : Bool) :
    ((Builder.loopStep loop (.iterate expired)).2.filterMap bookOf).length ≤ 1 := by
  by_cases hrunning : loop.running = true
  · rw [Builder.loopStep_iterate hrunning]
    unfold Builder.Loop.iterate
    split
    · split
      · exact length_books_handleUpdate _ _
      · split
        · exact Nat.zero_le _
        · exact length_books_advance _ _
    · split
      · exact Nat.zero_le _
      · exact length_books_advance _ _
  · rw [Builder.loopStep_stopped (by simpa using hrunning)]
    exact Nat.zero_le _

/-- Only a builder in an iteration publishes, one book, and only if it has not ended. -/
theorem publishedBy_step (system : System) (a : Action) (b : Nat)
    (h : Pipeline.publishedBy b (system.step a).2 ≠ []) :
    (∃ expired, a = .step (.iterate b expired)) ∧ b < system.spawned.length ∧ ¬ Ended system b ∧
      (Pipeline.publishedBy b (system.step a).2).length ≤ 1 := by
  have hmove := move_step system a
  generalize (system.step a).1 = system' at hmove
  generalize (system.step a).2 = out at hmove h
  cases hmove with
  | iterated b' expired task htask =>
      rw [publishedBy_map] at h ⊢
      by_cases hb : b' = b
      · subst hb
        rw [if_pos rfl] at h ⊢
        refine ⟨⟨expired, rfl⟩, (List.getElem?_eq_some_iff.mp htask).1, ?_, length_books_loopStep _ _⟩
        rintro ⟨old, hold, hstopped, -⟩
        obtain rfl := Option.some.inj (htask.symm.trans hold)
        rw [Builder.loopStep_stopped hstopped] at h
        exact h rfl
      · rw [if_neg hb] at h
        exact absurd rfl h
  | _ => exact absurd rfl h

namespace Pipeline

/-! ## One step -/

/-- What one step can do. -/
inductive Moves (s : Pipeline) : Pipeline → List Report → Prop where
  | manager (a : Action) (hquiet : ∀ b, publishedBy b (s.system.step a).2 = []) :
      Moves s { s with system := (s.system.step a).1 } ((s.system.step a).2.map .manager)
  /-- A builder that has nothing left to send holds what it publishes. -/
  | iterated (b : Nat) (expired : Bool) (hsent : s.books.outbox b = []) :
      Moves s { s with
        system := (s.system.step (.step (.iterate b expired))).1
        books  := (FanIn.step snapshotCapacity channelCapacity s.wrap s.books
          (.produce b (publishedBy b (s.system.step (.step (.iterate b expired))).2))).1 }
        ((s.system.step (.step (.iterate b expired))).2.map .manager)
  | moved (action : FanIn.Action Nat OrderBook Int) (hdrains : action.Drains) :
      Moves s (s.move action).1 (s.move action).2
  /-- The settings, which tasks are aborted, or nothing. -/
  | configured (consuming udpSender : Bool) (aborted : Nat → Bool)
      (haborted : ∀ b, aborted b = true → s.aborted b = true ∨ s.stored b = true) :
      Moves s { s with consuming := consuming, udpSender := udpSender, aborted := aborted } []
  | cancelled (b : Nat) (haborted : s.aborted b = true) :
      Moves s { s with
        system    := endTask s.system b
        books     := (FanIn.step snapshotCapacity channelCapacity s.wrap s.books (.drop fun j => j = b)).1
        cancelled := Function.update s.cancelled b true } []

theorem Moves.none (s : Pipeline) : Moves s s [] := .configured s.consuming s.udpSender s.aborted fun _ => Or.inl

/-- Anything but an iteration publishes nothing. -/
theorem moves_manager (s : Pipeline) {a : Action} (h : ∀ b expired, a ≠ .step (.iterate b expired)) :
    Moves s { s with system := (s.system.step a).1 } ((s.system.step a).2.map .manager) := by
  refine .manager a fun b => ?_
  by_contra hpublished
  obtain ⟨⟨expired, ha⟩, -⟩ := publishedBy_step s.system a b hpublished
  exact h b expired ha

/-- **Every step is one of these.** -/
theorem moves_step (s : Pipeline) (action : PipelineAction) : Moves s (s.step action).1 (s.step action).2 := by
  cases action with
  | manager a =>
      cases a with
      | call request => exact moves_manager s nofun
      | step st =>
          cases st with
          | iterate b expired =>
              show Moves s (s.iterate b expired).1 (s.iterate b expired).2
              unfold iterate
              split_ifs with hsent
              · exact .iterated b expired hsent
              · exact .none s
          | check c => exact moves_manager s nofun
          | store c => exact moves_manager s nofun
          | send c => exact moves_manager s nofun
          | close b => exact moves_manager s nofun
  | handOver b => exact .moved (.handOver b) trivial
  | forward b now => exact .moved (.forward b now) trivial
  | collect b => exact .moved (.collect b) trivial
  | consume =>
      show Moves s (if s.consuming then s.move .consume else (s, [])).1
        (if s.consuming then s.move .consume else (s, [])).2
      split_ifs
      · exact .moved .consume trivial
      · exact .none s
  | setUdpSender => exact .configured s.consuming true s.aborted fun _ => Or.inl
  | startConsumer => exact .configured true s.udpSender s.aborted fun _ => Or.inl
  | shutdown => exact .configured s.consuming s.udpSender _ fun b hb => (Bool.or_eq_true ..).mp hb
  | cancel b =>
      show Moves s (s.cancel b) []
      unfold cancel
      split_ifs with haborted
      · exact .cancelled b haborted
      · exact .none s

/-! ## What has been published, and what has been consumed -/

def Report.effect? : Report → Option Effect
  | .manager effect => some effect
  | .consumed ..    => none

def published (b : Nat) (reports : List Report) : List OrderBook := publishedBy b (reports.filterMap Report.effect?)

def consumed (b : Nat) (reports : List Report) : List BuiltOrderBook :=
  reports.filterMap fun
    | .consumed b' built _ => if b' = b then some built else none
    | .manager _           => none

theorem published_append (b : Nat) (reports later : List Report) :
    published b (reports ++ later) = published b reports ++ published b later := by
  unfold published
  rw [List.filterMap_append, publishedBy_append]

theorem consumed_append (b : Nat) (reports later : List Report) :
    consumed b (reports ++ later) = consumed b reports ++ consumed b later := List.filterMap_append

theorem published_manager (b : Nat) (effects : List Effect) :
    published b (effects.map .manager) = publishedBy b effects := by
  unfold published
  rw [List.filterMap_map]
  exact congrArg (publishedBy b) (List.filterMap_some ..)

theorem consumed_manager (b : Nat) (effects : List Effect) : consumed b (effects.map .manager) = [] := by
  unfold consumed
  rw [List.filterMap_map]
  exact List.filterMap_eq_nil_iff.mpr fun _ _ => rfl

/-- What moving books reports. -/
theorem move_reports (s : Pipeline) (action : FanIn.Action Nat OrderBook Int) (b : Nat) :
    published b (s.move action).2 = [] ∧
    (consumed b (s.move action).2).map BuiltOrderBook.orderbook = FanIn.itemsOf BuiltOrderBook.orderbook b
      (FanIn.step snapshotCapacity channelCapacity s.wrap s.books action).2 := by
  unfold move
  dsimp only
  constructor
  · unfold published
    rw [List.filterMap_map]
    exact congrArg (publishedBy b) (List.filterMap_eq_nil_iff.mpr fun _ _ => rfl)
  · unfold consumed FanIn.itemsOf
    rw [List.filterMap_map]
    generalize (FanIn.step snapshotCapacity channelCapacity s.wrap s.books action).2 = items
    induction items with
    | nil => rfl
    | cons item items ih =>
        rw [List.filterMap_cons, List.filter_cons]
        by_cases hb : item.1 = b
        · simp [hb] at ih ⊢
          exact ih
        · simp [hb] at ih ⊢
          exact ih

/-- The books are where they should be. -/
structure Accounted (s : Pipeline) (reports : List Report) : Prop where
  bounded : FanIn.Bounded snapshotCapacity channelCapacity s.books
  /-- A book is consumed, on its way, or has been lost with the task of its builder. -/
  books   : ∀ b, ∃ lost, published b reports
    = (consumed b reports).map BuiltOrderBook.orderbook ++ FanIn.flight BuiltOrderBook.orderbook s.books b ++ lost ∧
    lost.length ≤ 1 ∧ (s.cancelled b = false → lost = [])
  outbox  : ∀ b, (s.books.outbox b).length ≤ 1
  idle    : ∀ b, s.system.spawned.length ≤ b → FanIn.Idle s.books b
  aborted : ∀ b, s.aborted b = true → b < s.system.spawned.length
  ended   : ∀ b, s.cancelled b = true → Ended s.system b ∧ s.books.outbox b = []
  owned   : Owned s.system

theorem Accounted.new : Accounted .new [] where
  bounded := .empty ..
  books   := fun _ => ⟨[], rfl, Nat.zero_le _, fun _ => rfl⟩
  outbox  := fun _ => Nat.zero_le _
  idle    := fun _ _ => ⟨rfl, rfl, rfl⟩
  aborted := nofun
  ended   := nofun
  owned   := owned_new

theorem length_spawned_le (system : System) (a : Action) : system.spawned.length ≤ (system.step a).1.spawned.length := by
  rw [← length_keys, ← length_keys]
  exact (keys_prefix_step system a).length_le

theorem wrap_orderbook (s : Pipeline) (b : Nat) (now : Int) (book : OrderBook) :
    BuiltOrderBook.orderbook (s.wrap b now book) = book := rfl

/-- A stored builder has been spawned. -/
theorem stored_lt {s : Pipeline} {b : Nat} (h : s.stored b = true) : b < s.system.spawned.length := by
  unfold stored at h
  obtain ⟨key, hkey, -⟩ := (Option.any_eq_true _ _).mp h
  rw [← length_keys]
  exact (List.getElem?_eq_some_iff.mp hkey).1

/-- The manager moves, and no book does. -/
theorem Accounted.manager {s : Pipeline} {reports : List Report} (h : Accounted s reports) (a : Action)
    (hquiet : ∀ b, publishedBy b (s.system.step a).2 = []) :
    Accounted { s with system := (s.system.step a).1 } (reports ++ (s.system.step a).2.map .manager) where
  bounded := h.bounded
  books   := by
    intro b
    rw [published_append, consumed_append, published_manager, consumed_manager, hquiet, List.append_nil,
      List.append_nil]
    exact h.books b
  outbox  := h.outbox
  idle    := fun b hb => h.idle b ((length_spawned_le s.system a).trans hb)
  aborted := fun b hb => (h.aborted b hb).trans_le (length_spawned_le s.system a)
  ended   := fun b hb => ⟨(h.ended b hb).1.step a, (h.ended b hb).2⟩
  owned   := h.owned.step a

/-- A builder publishes. -/
theorem Accounted.iterated {s : Pipeline} {reports : List Report} (h : Accounted s reports) {b : Nat} {expired : Bool}
    (hsent : s.books.outbox b = []) :
    Accounted { s with
      system := (s.system.step (.step (.iterate b expired))).1
      books  := (FanIn.step snapshotCapacity channelCapacity s.wrap s.books
        (.produce b (publishedBy b (s.system.step (.step (.iterate b expired))).2))).1 }
      (reports ++ (s.system.step (.step (.iterate b expired))).2.map .manager) := by
  have hsteps := publishedBy_step s.system (.step (.iterate b expired))
  have hlength := length_spawned_le s.system (.step (.iterate b expired))
  generalize heffects : (s.system.step (.step (.iterate b expired))).2 = effects at hsteps
  generalize hitems : publishedBy b effects = items
  -- only this builder publishes
  have hmade : ∀ b', (FanIn.Action.produce b items : FanIn.Action Nat OrderBook Int).made b'
      = publishedBy b' effects := by
    intro b'
    show (if b = b' then items else []) = publishedBy b' effects
    split_ifs with hb
    · rw [← hitems, hb]
    · by_contra hpublished
      obtain ⟨⟨_, ha⟩, -⟩ := hsteps b' (Ne.symm hpublished)
      exact hb (Step.iterate.inj (Action.step.inj ha)).1
  refine ⟨h.bounded.step _, fun b' => ?_, fun b' => ?_, fun b' hb' => ?_, fun b' hb' => ?_, fun b' hb' => ?_,
    h.owned.step _⟩
  · obtain ⟨lost, hbooks, hlost, hgone⟩ := h.books b'
    have hflight := FanIn.step_flight snapshotCapacity channelCapacity s.wrap_orderbook s.books (.produce b items) b'
    have hnone : (FanIn.Action.produce b items : FanIn.Action Nat OrderBook Int).lost s.books b' = [] := rfl
    rw [hmade, hnone, List.append_nil] at hflight
    refine ⟨lost, ?_, hlost, hgone⟩
    rw [published_append, consumed_append, published_manager, consumed_manager, List.append_nil, hbooks]
    by_cases hpublished : publishedBy b' effects = []
    · rw [hpublished, List.append_nil] at hflight ⊢
      rw [← hflight]
      rfl
    · -- a builder that publishes has not ended
      have hrunning : s.cancelled b' = false := by
        by_contra hcancelled
        exact (hsteps b' hpublished).2.2.1 (h.ended b' (by simpa using hcancelled)).1
      obtain rfl := hgone hrunning
      rw [List.append_nil, List.append_nil, List.append_assoc, ← hflight]
      rfl
  · by_cases hb : b' = b
    · subst hb
      show (Function.update s.books.outbox b' (s.books.outbox b' ++ items) b').length ≤ 1
      rw [Function.update_self, hsent, List.nil_append, ← hitems]
      by_cases hpublished : publishedBy b' effects = []
      · rw [hpublished]
        exact Nat.zero_le _
      · exact (hsteps b' hpublished).2.2.2
    · show (Function.update s.books.outbox b (s.books.outbox b ++ items) b').length ≤ 1
      rw [Function.update_of_ne hb]
      exact h.outbox b'
  · refine (h.idle b' (hlength.trans hb')).step ?_
    rw [hmade]
    by_contra hpublished
    exact absurd (hsteps b' hpublished).2.1 (Nat.not_lt.mpr (hlength.trans hb'))
  · exact (h.aborted b' hb').trans_le hlength
  · obtain ⟨hended, hempty⟩ := h.ended b' hb'
    refine ⟨hended.step _, List.suffix_nil.mp (hempty ▸ FanIn.outbox_step _ _ _ ?_ s.books)⟩
    rw [hmade]
    by_contra hpublished
    exact (hsteps b' hpublished).2.2.1 hended

/-- Books are moved on. -/
theorem Accounted.moved {s : Pipeline} {reports : List Report} (h : Accounted s reports)
    {action : FanIn.Action Nat OrderBook Int} (hdrains : action.Drains) :
    Accounted (s.move action).1 (reports ++ (s.move action).2) := by
  have hmade : ∀ b, action.made b = [] := by
    cases action with
    | produce b items => exact absurd hdrains id
    | _ => exact fun _ => rfl
  have hlost : ∀ b, action.lost s.books b = [] := by
    cases action with
    | drop ended => exact absurd hdrains id
    | _ => exact fun _ => rfl
  have houtbox := fun b => FanIn.outbox_step snapshotCapacity channelCapacity s.wrap (hmade b) s.books
  refine ⟨h.bounded.step _, fun b => ?_, fun b => (houtbox b).length_le.trans (h.outbox b),
    fun b hb => (h.idle b hb).step (hmade b), h.aborted,
    fun b hb => ⟨(h.ended b hb).1, List.suffix_nil.mp ((h.ended b hb).2 ▸ houtbox b)⟩, h.owned⟩
  obtain ⟨lost, hbooks, hgone⟩ := h.books b
  obtain ⟨hpublished, hconsumed⟩ := s.move_reports action b
  have hflight := FanIn.step_flight snapshotCapacity channelCapacity s.wrap_orderbook s.books action b
  rw [hmade, hlost, List.append_nil, List.append_nil] at hflight
  refine ⟨lost, ?_, hgone⟩
  rw [published_append, consumed_append, hpublished, List.append_nil, hbooks, List.map_append, hconsumed, ← hflight]
  simp only [List.append_assoc]
  rfl

/-- A task ends, and with it goes what it has not sent. -/
theorem Accounted.cancelled {s : Pipeline} {reports : List Report} (h : Accounted s reports) {b : Nat}
    (haborted : s.aborted b = true) :
    Accounted { s with
      system    := endTask s.system b
      books     := (FanIn.step snapshotCapacity channelCapacity s.wrap s.books (.drop fun j => j = b)).1
      cancelled := Function.update s.cancelled b true } reports := by
  have hspawned : (endTask s.system b).spawned.length = s.system.spawned.length := by
    rw [← length_keys, ← length_keys, keys_endTask]
  have hmade : ∀ b', (FanIn.Action.drop fun j => decide (j = b) : FanIn.Action Nat OrderBook Int).made b' = [] :=
    fun _ => rfl
  have houtbox := fun b' => FanIn.outbox_step snapshotCapacity channelCapacity s.wrap (hmade b') s.books
  refine ⟨h.bounded.step _, fun b' => ?_, fun b' => (houtbox b').length_le.trans (h.outbox b'),
    fun b' hb' => (h.idle b' (hspawned ▸ hb')).step (hmade b'), fun b' hb' => hspawned.symm ▸ h.aborted b' hb',
    fun b' hb' => ?_, ?_⟩
  · obtain ⟨lost, hbooks, hlost, hgone⟩ := h.books b'
    have hflight := FanIn.step_flight snapshotCapacity channelCapacity s.wrap_orderbook s.books
      (.drop fun j => decide (j = b)) b'
    rw [hmade, List.append_nil] at hflight
    by_cases hb : b' = b
    · subst hb
      have hdropped : (FanIn.Action.drop fun j => decide (j = b') : FanIn.Action Nat OrderBook Int).lost s.books b'
          = s.books.outbox b' := if_pos (decide_eq_true rfl)
      refine ⟨s.books.outbox b' ++ lost, ?_, ?_, ?_⟩
      · rw [hbooks, ← hflight, hdropped]
        simp only [List.append_assoc]
        rfl
      · -- a task that has ended before has nothing to lose
        cases hcancelled : s.cancelled b' with
        | true =>
            rw [(h.ended b' hcancelled).2]
            exact hlost
        | false =>
            rw [hgone hcancelled, List.append_nil]
            exact h.outbox b'
      · intro hcancelled
        exact absurd hcancelled (by simp)
    · have hkept : (FanIn.Action.drop fun j => decide (j = b) : FanIn.Action Nat OrderBook Int).lost s.books b' = [] :=
        if_neg (by simpa using hb)
      rw [hkept, List.append_nil] at hflight
      refine ⟨lost, ?_, hlost, fun hcancelled => hgone ?_⟩
      · rw [hbooks, ← hflight]
        rfl
      · exact (Function.update_of_ne hb true s.cancelled).symm.trans hcancelled
  · by_cases hb : b' = b
    · subst hb
      exact ⟨ended_endTask (h.aborted b' haborted), if_pos (decide_eq_true rfl)⟩
    · have hcancelled : s.cancelled b' = true := (Function.update_of_ne hb true s.cancelled).symm.trans hb'
      obtain ⟨hended, hempty⟩ := h.ended b' hcancelled
      exact ⟨hended.endTask b, List.suffix_nil.mp (hempty ▸ houtbox b')⟩
  · unfold endTask
    split
    next task htask => exact h.owned.loops ((keys_set htask _).symm ▸ List.prefix_rfl)
    next => exact h.owned

/-- **One step.** -/
theorem Accounted.step {s : Pipeline} {reports : List Report} (h : Accounted s reports) (action : PipelineAction) :
    Accounted (s.step action).1 (reports ++ (s.step action).2) := by
  have hmoves := s.moves_step action
  generalize (s.step action).1 = s' at hmoves
  generalize (s.step action).2 = out at hmoves
  cases hmoves with
  | manager a hquiet => exact h.manager a hquiet
  | iterated b expired hsent => exact h.iterated hsent
  | moved action hdrains => exact h.moved hdrains
  | configured consuming udpSender aborted haborted =>
      rw [List.append_nil]
      refine ⟨h.bounded, h.books, h.outbox, h.idle, fun b hb => ?_, h.ended, h.owned⟩
      rcases haborted b hb with hb | hb
      · exact h.aborted b hb
      · exact stored_lt hb
  | cancelled b haborted =>
      rw [List.append_nil]
      exact h.cancelled haborted

/-! ## Under which key it is consumed -/

/-- A built book bears the key of its builder. -/
def Bears (keys : List Key) (b : Nat) (built : BuiltOrderBook) : Prop :=
  keys[b]? = some (built.exchange, built.symbol)

theorem Bears.mono {keys keys' : List Key} (h : keys <+: keys') {b : Nat} {built : BuiltOrderBook}
    (hbears : Bears keys b built) : Bears keys' b built := getElem?_of_prefix h hbears

structure Labelled (s : Pipeline) (reports : List Report) : Prop where
  books    : FanIn.Labelled (Bears s.system.keys) s.books
  consumed : ∀ b, ∀ built ∈ consumed b reports, Bears s.system.keys b built

theorem Labelled.new : Labelled .new [] where
  books    := ⟨nofun, nofun⟩
  consumed := nofun

/-- More builders, and the same reports of the consumer. -/
theorem Labelled.mono {s s' : Pipeline} {reports reports' : List Report} (h : Labelled s reports)
    (hkeys : s.system.keys <+: s'.system.keys) (hbooks : FanIn.Labelled (Bears s.system.keys) s'.books)
    (hreports : ∀ b, Pipeline.consumed b reports' = Pipeline.consumed b reports) : Labelled s' reports' where
  books    := ⟨fun b built hb => (hbooks.held b built hb).mono hkeys,
    fun entry hentry => (hbooks.collector entry hentry).mono hkeys⟩
  consumed := fun b built hb => (h.consumed b built (hreports b ▸ hb)).mono hkeys

theorem mem_consumed_move {s : Pipeline} {action : FanIn.Action Nat OrderBook Int} {b : Nat} {built : BuiltOrderBook}
    (h : built ∈ Pipeline.consumed b (s.move action).2) :
    (b, built) ∈ (FanIn.step snapshotCapacity channelCapacity s.wrap s.books action).2 := by
  unfold Pipeline.consumed move at h
  rw [List.filterMap_map] at h
  obtain ⟨⟨b', built'⟩, hmem, heq⟩ := List.mem_filterMap.mp h
  dsimp only [Function.comp_apply] at heq
  split_ifs at heq with hb
  obtain rfl := Option.some.inj heq
  exact hb ▸ hmem

/-- What is wrapped gets the key of the builder that has published it. -/
theorem bears_wrap {s : Pipeline} {reports : List Report} (h : Accounted s reports) (b : Nat) (now : Int)
    (book : OrderBook) (hbook : book ∈ s.books.channel b) : Bears s.system.keys b (s.wrap b now book) := by
  have hlt : b < s.system.keys.length := by
    rw [length_keys]
    by_contra hge
    rw [(h.idle b (by omega)).channel] at hbook
    cases hbook
  unfold Bears wrap
  rw [List.getElem?_eq_getElem hlt, List.getD_eq_getElem?_getD, List.getElem?_eq_getElem hlt]
  rfl

theorem Labelled.step {s : Pipeline} {reports : List Report} (h : Labelled s reports) (hs : Accounted s reports)
    (action : PipelineAction) : Labelled (s.step action).1 (reports ++ (s.step action).2) := by
  have hmoves := s.moves_step action
  generalize (s.step action).1 = s' at hmoves
  generalize (s.step action).2 = out at hmoves
  have hwrap := bears_wrap hs
  cases hmoves with
  | manager a _ =>
      refine h.mono (keys_prefix_step s.system a) h.books fun b => ?_
      rw [consumed_append, consumed_manager, List.append_nil]
  | iterated b expired _ =>
      refine h.mono (keys_prefix_step s.system _) (h.books.step _ _ hwrap _).1 fun b => ?_
      rw [consumed_append, consumed_manager, List.append_nil]
  | moved action _ =>
      have hmoved := h.books.step snapshotCapacity channelCapacity hwrap action
      refine ⟨hmoved.1, fun b built hbuilt => ?_⟩
      rw [consumed_append, List.mem_append] at hbuilt
      rcases hbuilt with hbuilt | hbuilt
      · exact h.consumed b built hbuilt
      · exact hmoved.2 _ (mem_consumed_move hbuilt)
  | configured consuming udpSender aborted _ =>
      rw [List.append_nil]
      exact ⟨h.books, h.consumed⟩
  | cancelled b _ =>
      rw [List.append_nil]
      refine h.mono ?_ (h.books.step _ _ hwrap _).1 fun _ => rfl
      show s.system.keys <+: (endTask s.system b).keys
      rw [keys_endTask]

/-! ## Runs -/

def after (acts : List PipelineAction) : Pipeline := (Machine.run Pipeline.step .new acts).1

def reports (acts : List PipelineAction) : List Report := (Machine.run Pipeline.step .new acts).2

theorem accounted_run (acts : List PipelineAction) :
    Accounted (after acts) (reports acts) ∧ Labelled (after acts) (reports acts) := by
  have hstep : ∀ s out action, Accounted s out ∧ Labelled s out → True →
      Accounted (s.step action).1 (out ++ (s.step action).2) ∧ Labelled (s.step action).1 (out ++ (s.step action).2) :=
    fun s out action h _ => ⟨h.1.step action, h.2.step h.1 action⟩
  exact (Machine.guarded_of_forall (P := fun _ => True) (fun _ _ => trivial) _).trace_invariant hstep
    ⟨.new, .new⟩

/-- **What a builder publishes is consumed in order.** It is consumed under the key of the builder or still on its way,
    and the channels never hold more than they may. Only a builder whose task has ended has lost a book, its last. -/
theorem books_consumed_in_order (acts : List PipelineAction) :
    FanIn.Bounded snapshotCapacity channelCapacity (after acts).books ∧
    ∀ b, (∃ lost, published b (reports acts) = (consumed b (reports acts)).map BuiltOrderBook.orderbook
        ++ FanIn.flight BuiltOrderBook.orderbook (after acts).books b ++ lost ∧
        lost.length ≤ 1 ∧ ((after acts).cancelled b = false → lost = [])) ∧
      ∀ built ∈ consumed b (reports acts), (after acts).system.keys[b]? = some (built.exchange, built.symbol) := by
  obtain ⟨haccounted, hlabelled⟩ := accounted_run acts
  exact ⟨haccounted.bounded, fun b => ⟨haccounted.books b, hlabelled.consumed b⟩⟩

/-! ## All of it can be consumed -/

/-- The forwarders, the consumer, and builders that send what they hold. -/
def Delivers : PipelineAction → Prop
  | .handOver _ | .forward .. | .collect _ | .consume => True
  | _                                                 => False

/-- What moves the books so. -/
def actionOf : FanIn.Action Nat OrderBook Int → PipelineAction
  | .handOver b    => .handOver b
  | .forward b now => .forward b now
  | .collect b     => .collect b
  | _              => .consume

theorem step_actionOf {s : Pipeline} (hconsuming : s.consuming = true) {action : FanIn.Action Nat OrderBook Int}
    (hdrains : action.Drains) : s.step (actionOf action) = s.move action := by
  cases action with
  | produce b items => exact absurd hdrains id
  | drop ended => exact absurd hdrains id
  | consume => exact if_pos hconsuming
  | _ => rfl

/-- A run of them does to the books what it should, and publishes nothing. -/
theorem run_actionOf {s : Pipeline} (hconsuming : s.consuming = true) {actions : List (FanIn.Action Nat OrderBook Int)}
    (hdrains : ∀ action ∈ actions, action.Drains) :
    (Machine.run Pipeline.step s (actions.map actionOf)).1 = { s with
      books := (Machine.run (FanIn.step snapshotCapacity channelCapacity s.wrap) s.books actions).1 } ∧
    ∀ b, published b (Machine.run Pipeline.step s (actions.map actionOf)).2 = [] := by
  induction actions generalizing s with
  | nil => exact ⟨rfl, fun _ => rfl⟩
  | cons action actions ih =>
      obtain ⟨hfirst, hrest⟩ := List.forall_mem_cons.mp hdrains
      have hstep := step_actionOf hconsuming hfirst
      obtain ⟨hstate, hnone⟩ := @ih (s.move action).1 hconsuming hrest
      rw [List.map_cons, Machine.run_cons, hstep]
      refine ⟨hstate, fun b => ?_⟩
      rw [published_append, hnone, (s.move_reports action b).1]
      rfl

/-- **All that has been published can be consumed**, once there is a consumer: from every state the forwarders and the
    consumer get there, whatever has been shut down. -/
theorem books_can_be_consumed (acts : List PipelineAction) (now : Int) (hconsuming : (after acts).consuming = true) :
    ∃ more : List PipelineAction, (∀ action ∈ more, Delivers action) ∧
      ∀ b, ∃ lost, published b (reports acts)
        = (consumed b (reports (acts ++ more))).map BuiltOrderBook.orderbook ++ lost ∧
        lost.length ≤ 1 ∧ ((after acts).cancelled b = false → lost = []) := by
  have hidle : ∀ b, b ∉ List.range (after acts).system.spawned.length → FanIn.Idle (after acts).books b :=
    fun b hb => (accounted_run acts).1.idle b (by simpa using hb)
  obtain ⟨books, ⟨actions, hdrains, hbooks⟩, hcollector, hdrained⟩ := FanIn.exists_drain (after acts).wrap
    (show 0 < snapshotCapacity by decide) (show 0 < channelCapacity by decide) now (after acts).books hidle
  obtain ⟨hstate, hnone⟩ := run_actionOf hconsuming hdrains
  refine ⟨actions.map actionOf, fun action hmem => ?_, fun b => ?_⟩
  · obtain ⟨move, hmove, rfl⟩ := List.mem_map.mp hmem
    cases move with
    | produce b items => exact absurd (hdrains _ hmove) id
    | drop ended => exact absurd (hdrains _ hmove) id
    | _ => trivial
  · have hafter : after (acts ++ actions.map actionOf) = { after acts with books := books } := by
      unfold after
      rw [Machine.run_append_state]
      exact hbooks ▸ hstate
    have hpublished : published b (reports (acts ++ actions.map actionOf)) = published b (reports acts) := by
      unfold reports
      rw [Machine.run_append_outputs, published_append]
      exact (congrArg (_ ++ ·) (hnone b)).trans (List.append_nil _)
    obtain ⟨lost, hlost, hgone⟩ := (accounted_run (acts ++ actions.map actionOf)).1.books b
    rw [hpublished, hafter, FanIn.flight_eq_nil (hdrained b) hcollector, List.append_nil] at hlost
    rw [hafter] at hgone
    exact ⟨lost, hlost, hgone⟩

/-- A snapshot, and the updates that follow it. -/
def numbered (n : Nat) : OrderBookUpdate := { (default : OrderBookUpdate) with isSnapshot := n = 0, updateId := n + 1 }

/-- An update is sent, and the builder takes a turn. -/
def sendNumbered (n : Nat) : List PipelineAction :=
  [.manager (.call (.sendUpdate (numbered n))), .manager (.step (.check n)), .manager (.step (.store n)),
    .manager (.step (.send n)), .manager (.step (.iterate 0 false))]

/-- After a hundred updates the builder publishes its book. -/
def hundredUpdates : List PipelineAction := .startConsumer :: (List.range 102).flatMap sendNumbered

theorem books_can_be_consumed_hundredUpdates :
    (published 0 (reports hundredUpdates)).length = 1 ∧
    ∃ more : List PipelineAction, (∀ action ∈ more, Delivers action) ∧
      ∀ b, ∃ lost, published b (reports hundredUpdates)
        = (consumed b (reports (hundredUpdates ++ more))).map BuiltOrderBook.orderbook ++ lost ∧
        lost.length ≤ 1 ∧ ((after hundredUpdates).cancelled b = false → lost = []) :=
  ⟨by decide +kernel, books_can_be_consumed hundredUpdates 0 (by decide +kernel)⟩

end Pipeline

/-! ## A key whose builder has ended -/

/-- There is a builder for the key in the map, and whatever has been spawned for it has ended. -/
structure Dead (system : System) (key : Key) : Prop where
  stored : (system.builders key).isSome = true
  ended  : ∀ b, system.keys[b]? = some key → Ended system b

/-- Nothing is spawned for a key that is in the map, -/
theorem Dead.keys_step {system : System} {key : Key} (h : Dead system key) (a : Action) {b : Nat}
    (hb : (system.step a).1.keys[b]? = some key) : system.keys[b]? = some key := by
  have hmove := move_step system a
  generalize (system.step a).1 = system' at hmove hb
  generalize (system.step a).2 = out at hmove
  cases hmove with
  | created c request _ hnone =>
      rw [keys_setCall, keys_spawn] at hb
      rcases getElem?_snoc hb with hb | ⟨-, rfl⟩
      · exact hb
      · have hstored := h.stored
        rw [hnone] at hstored
        cases hstored
  | sent c request b' update task _ _ htask => exact (keys_set htask _) ▸ hb
  | iterated b' expired task htask => exact (keys_set htask _) ▸ hb
  | closed b' task htask _ => exact (keys_set htask _) ▸ hb
  | _ => exact hb

/-- and the map keeps it. -/
theorem Dead.stored_step {system : System} {key : Key} (h : Dead system key) (a : Action) :
    ((system.step a).1.builders key).isSome = true := by
  have hmove := move_step system a
  generalize (system.step a).1 = system' at hmove
  generalize (system.step a).2 = out at hmove
  cases hmove with
  | stored c request b _ =>
      rw [builders_store]
      by_cases hkey : key = request.key
      · rw [hkey, Function.update_self]
        rfl
      · rw [Function.update_of_ne hkey]
        exact h.stored
  | _ => exact h.stored

theorem Dead.step {system : System} {key : Key} (h : Dead system key) (a : Action) : Dead (system.step a).1 key :=
  ⟨h.stored_step a, fun b hb => (h.ended b (h.keys_step a hb)).step a⟩

theorem Dead.endTask {system : System} {key : Key} (h : Dead system key) (b : Nat) :
    Dead (Pipeline.endTask system b) key := by
  refine ⟨?_, fun b' hb' => (h.ended b' (keys_endTask system b ▸ hb')).endTask b⟩
  unfold Pipeline.endTask
  split <;> exact h.stored

theorem Ended.not_alive {system : System} {b : Nat} (h : Ended system b) : system.alive b = false := by
  obtain ⟨task, htask, hstopped, -⟩ := h
  unfold System.alive
  rw [htask, Option.any_some, hstopped]
  rfl

/-- A send to such a builder fails. -/
theorem Ended.send {system : System} {b : Nat} (h : Ended system b) {c : Nat} {request : Request}
    {update : OrderBookUpdate} (hcall : system.calls[c]? = some ⟨request, .ready b⟩)
    (hupdate : request.update? = some update) : (system.step (.step (.send c))).2 = [.failed c update] := by
  show (system.advance (.send c)).2 = _
  unfold System.advance
  dsimp only
  rw [hcall]
  dsimp only
  unfold System.send
  cases request with
  | getOrCreateBuilder exchange symbol => cases hupdate
  | sendUpdate u =>
      obtain rfl := Option.some.inj hupdate
      simp [h.not_alive]
  | trySendUpdate u =>
      obtain rfl := Option.some.inj hupdate
      simp [h.not_alive]

/-- What is sent is sent by a call that has its sender. -/
theorem call_of_sent {system : System} {a : Action} {c b : Nat} {update : OrderBookUpdate}
    (h : .sent c b update ∈ (system.step a).2) :
    a = .step (.send c) ∧ ∃ request, system.calls[c]? = some ⟨request, .ready b⟩ ∧ request.update? = some update := by
  have hmove := move_step system a
  generalize (system.step a).1 = system' at hmove
  generalize (system.step a).2 = out at hmove h
  cases hmove with
  | sent c' request b' update' task hcall hupdate _ =>
      obtain ⟨rfl, rfl, rfl⟩ := Effect.sent.inj (List.mem_singleton.mp h)
      exact ⟨rfl, request, hcall, hupdate⟩
  | failed c' request b' update' _ _ _ => exact absurd (List.mem_singleton.mp h) nofun
  | iterated b' expired task _ =>
      obtain ⟨effect, -, heffect⟩ := List.mem_map.mp h
      cases heffect
  | _ => cases h

/-- Nothing is sent for a dead key. -/
theorem Dead.not_sent {system : System} {key : Key} (h : Dead system key) (howned : Owned system) {a : Action}
    {c b : Nat} {update : OrderBookUpdate} (hsent : .sent c b update ∈ (system.step a).2) : keyOf update ≠ key := by
  rintro rfl
  obtain ⟨rfl, request, hcall, hupdate⟩ := call_of_sent hsent
  have hkey := howned.sender _ (List.mem_of_getElem? hcall) b rfl
  have hended := h.ended b (key_of_update? hupdate ▸ hkey)
  rw [hended.send hcall hupdate] at hsent
  exact absurd (List.mem_singleton.mp hsent) nofun

namespace Pipeline

/-- A step of the tasks is a step of the manager, or ends a task, or leaves the manager alone. -/
theorem system_step (s : Pipeline) (action : PipelineAction) :
    (∃ a, (s.step action).1.system = (s.system.step a).1 ∧ (s.step action).2 = (s.system.step a).2.map .manager) ∨
    (((∃ b, (s.step action).1.system = endTask s.system b) ∨ (s.step action).1.system = s.system) ∧
      (s.step action).2.filterMap Report.effect? = []) := by
  have hmoves := s.moves_step action
  generalize (s.step action).1 = s' at hmoves
  generalize (s.step action).2 = out at hmoves
  cases hmoves with
  | manager a _ => exact Or.inl ⟨a, rfl, rfl⟩
  | iterated b expired _ => exact Or.inl ⟨_, rfl, rfl⟩
  | moved action _ =>
      refine Or.inr ⟨Or.inr rfl, ?_⟩
      unfold move
      rw [List.filterMap_map]
      exact List.filterMap_eq_nil_iff.mpr fun _ _ => rfl
  | configured consuming udpSender aborted _ => exact Or.inr ⟨Or.inr rfl, rfl⟩
  | cancelled b _ => exact Or.inr ⟨Or.inl ⟨b, rfl⟩, rfl⟩

theorem Ended.pipeline {s : Pipeline} {b : Nat} (h : Ended s.system b) (action : PipelineAction) :
    Ended (s.step action).1.system b ∧ published b (s.step action).2 = [] := by
  rcases s.system_step action with ⟨a, hsystem, hreports⟩ | ⟨hsystem, hreports⟩
  · rw [hsystem, hreports, published_manager]
    refine ⟨h.step a, ?_⟩
    by_contra hpublished
    exact (publishedBy_step s.system a b hpublished).2.2.1 h
  · refine ⟨?_, congrArg (publishedBy b) hreports⟩
    rcases hsystem with ⟨b', hsystem⟩ | hsystem
    · exact hsystem ▸ h.endTask b'
    · exact hsystem ▸ h

/-- What has ended publishes nothing more. -/
theorem published_of_ended {s : Pipeline} {b : Nat} (h : Ended s.system b) (more : List PipelineAction) :
    published b (Machine.run Pipeline.step s more).2 = [] := by
  induction more generalizing s with
  | nil => rfl
  | cons action more ih =>
      obtain ⟨hended, hnone⟩ := Ended.pipeline h action
      rw [Machine.run_cons, published_append, hnone, ih hended]
      rfl

/-- A dead key with the books in order. -/
structure Fallen (s : Pipeline) (key : Key) : Prop where
  dead  : Dead s.system key
  owned : Owned s.system

theorem Fallen.step {s : Pipeline} {key : Key} (h : Fallen s key) (action : PipelineAction) :
    Fallen (s.step action).1 key ∧
    ∀ b : Nat, (s.step action).1.system.keys[b]? = some key → s.system.keys[b]? = some key := by
  rcases s.system_step action with ⟨a, hsystem, -⟩ | ⟨⟨b', hsystem⟩ | hsystem, -⟩
  · exact ⟨⟨hsystem ▸ h.dead.step a, hsystem ▸ h.owned.step a⟩, fun b hb => h.dead.keys_step a (hsystem ▸ hb)⟩
  · have howned : Owned (endTask s.system b') := by
      unfold endTask
      split
      next task htask => exact h.owned.loops ((keys_set htask _).symm ▸ List.prefix_rfl)
      next => exact h.owned
    refine ⟨⟨hsystem ▸ h.dead.endTask b', hsystem ▸ howned⟩, fun b hb => ?_⟩
    rw [hsystem, keys_endTask] at hb
    exact hb
  · exact ⟨⟨hsystem ▸ h.dead, hsystem ▸ h.owned⟩, fun b hb => hsystem ▸ hb⟩

theorem Fallen.run {s : Pipeline} {key : Key} (h : Fallen s key) (more : List PipelineAction) :
    Fallen (Machine.run Pipeline.step s more).1 key ∧
    (∀ b : Nat, (Machine.run Pipeline.step s more).1.system.keys[b]? = some key → s.system.keys[b]? = some key) ∧
    ∀ c b update, Report.manager (.sent c b update) ∈ (Machine.run Pipeline.step s more).2 → keyOf update ≠ key := by
  induction more generalizing s with
  | nil => exact ⟨h, fun _ hb => hb, nofun⟩
  | cons action more ih =>
      obtain ⟨hnext, hkeys⟩ := h.step action
      obtain ⟨hlast, hlater, hsent⟩ := ih hnext
      refine ⟨hlast, fun b hb => hkeys b (hlater b hb), fun c b update hmem => ?_⟩
      rcases List.mem_append.mp hmem with hmem | hmem
      · rcases s.system_step action with ⟨a, -, hreports⟩ | ⟨-, hreports⟩
        · rw [hreports] at hmem
          obtain ⟨effect, heffect, hsame⟩ := List.mem_map.mp hmem
          exact h.dead.not_sent h.owned (Report.manager.inj hsame ▸ heffect)
        · have hnone := List.filterMap_eq_nil_iff.mp hreports _ hmem
          cases hnone
      · exact hsent c b update hmem

/-- **A key whose builders have ended gets none again**, whether they were shut down or have been replaced in the map
    and run dry. The handle stays in the map: in no continuation is a builder spawned for the key, a book published, or
    an update sent, and every call that would send one fails. -/
theorem ended_for_good (acts more : List PipelineAction) (key : Key)
    (hstored : ((after acts).system.builders key).isSome = true)
    (hended : ∀ b, (after acts).system.keys[b]? = some key → Ended (after acts).system b) :
    (∀ b, (after (acts ++ more)).system.keys[b]? = some key → (after acts).system.keys[b]? = some key ∧
      published b (Machine.run Pipeline.step (after acts) more).2 = []) ∧
    (∀ c b update, Report.manager (.sent c b update) ∈ (Machine.run Pipeline.step (after acts) more).2 →
      keyOf update ≠ key) ∧
    ∀ c request b update, (after (acts ++ more)).system.calls[c]? = some ⟨request, .ready b⟩ → request.key = key →
      request.update? = some update →
      ((after (acts ++ more)).step (.manager (.step (.send c)))).2 = [.manager (.failed c update)] := by
  have hdead : Dead (after acts).system key := ⟨hstored, hended⟩
  obtain ⟨hlast, hkeys, hsent⟩ := Fallen.run ⟨hdead, (accounted_run acts).1.owned⟩ more
  have hafter : after (acts ++ more) = (Machine.run Pipeline.step (after acts) more).1 := by
    unfold after
    rw [Machine.run_append_state]
  rw [hafter]
  refine ⟨fun b hb => ⟨hkeys b hb, published_of_ended (hdead.ended b (hkeys b hb)) more⟩, hsent, ?_⟩
  rintro c request b update hcall rfl hupdate
  have hkey := hlast.owned.sender _ (List.mem_of_getElem? hcall) b rfl
  exact congrArg (List.map Report.manager) ((hlast.dead.ended b hkey).send hcall hupdate)

/-- One update, and then everything is shut down. -/
def shutDown : List PipelineAction :=
  [.startConsumer, .manager (.call (.sendUpdate default)), .manager (.step (.check 0)), .manager (.step (.store 0)),
    .manager (.step (.send 0)), .shutdown, .cancel 0]

/-- A later call finds the handle, and fails. -/
theorem ended_for_good_shutDown :
    let more := [.manager (.call (.sendUpdate default)), .manager (.step (.check 1))]
    ((after (shutDown ++ more)).step (.manager (.step (.send 1)))).2 = [.manager (.failed 1 default)] := by
  have hkeys : (after shutDown).system.keys = [(.binance, "")] := by decide
  have hended : ∀ b : Nat, (after shutDown).system.keys[b]? = some (.binance, "") →
      Ended (after shutDown).system b := by
    intro b hb
    have hlt := (List.getElem?_eq_some_iff.mp hb).1
    rw [hkeys, List.length_singleton] at hlt
    obtain rfl : b = 0 := by omega
    exact ⟨_, rfl, rfl, rfl⟩
  have hfails := (ended_for_good shutDown
    [.manager (.call (.sendUpdate default)), .manager (.step (.check 1))] (.binance, "") (by decide) hended).2.2
  exact hfails 1 (.sendUpdate default) 0 default (by decide) (by decide) rfl

end Pipeline

end Manager
end TradingPlatform
