import TradingPlatform.Library.Mpsc
import TradingPlatform.Features.Pipeline
import TradingPlatform.Receiver.Addresses

/-!
# `Features.Concurrent` — the tasks of the feature pipeline

Twenty receivers parse packets and send what comes of them through two channels, one for books and one for trades. Each
channel has a task of its own, and both tasks work on the same pipeline: the book task in two steps, the engine first
and then, under the lock of the calculators, the features. All of them run interleaved, in any order.

What is shown is what one task would show that took the inputs one after the other, each receiver's in the order it
sent them (`shown_in_some_order`), and whatever has been sent can be processed (`all_can_be_processed`).
-/

namespace TradingPlatform
namespace Features

open Market Engine Machine Receiver Receiver.Addresses FeaturePipeline

/-! ## The book task in two steps -/

namespace FeaturePipeline

/-- Process through the matching engine. -/
def matchUpdate (p : FeaturePipeline) (update : OrderBookUpdate) : FeaturePipeline :=
  { p with matchingEngine := (p.matchingEngine.processL2Update update).1 }

/-- Get the updated book, update the calculator of the symbol and calculate. -/
def calculate (p : FeaturePipeline) (update : OrderBookUpdate) : FeaturePipeline × List Shown :=
  match p.matchingEngine.getOrderBook update.symbol with
  | some book =>
      let calculator := (p.calculatorOf update.symbol).updateOrderBook book
      ({ p with featureCalculators := Function.update p.featureCalculators update.symbol (some calculator) },
        [{ exchange := update.exchange, symbol := update.symbol, book := some book
           features := calculator.calculateFeatures update.symbol update.exchange }])
  | none => (p, [{ exchange := update.exchange, symbol := update.symbol, book := none, features := none }])

/-- One after the other they are the whole. -/
theorem calculate_matchUpdate (p : FeaturePipeline) (update : OrderBookUpdate) :
    (p.matchUpdate update).calculate update = pipelineStep p (.book update) := by
  obtain ⟨book, hbook, -⟩ := getOrderBook_processL2Update p.matchingEngine update
  have hmatched : (p.matchUpdate update).matchingEngine.getOrderBook update.symbol = some book := hbook
  rw [pipelineStep_book p hbook]
  unfold calculate
  rw [hmatched]
  rfl

end FeaturePipeline

/-! ## The tasks -/

/-- `mpsc::channel(10000)` -/
def channelCapacity : Nat := 10000

structure Process where
  aggregator : OrderBookAggregator
  orderbooks : Mpsc.State ReceiverSocket OrderBookUpdate
  trades     : Mpsc.State ReceiverSocket Trade
  /-- the engine has processed the update that the book task has received -/
  matched    : Bool
  pipeline   : FeaturePipeline

def Process.new (lookbackMs : Int) : Process where
  aggregator := .new
  orderbooks := .empty
  trades     := .empty
  matched    := false
  pipeline   := .new lookbackMs

inductive ProcessAction where
  /-- A receiver has a packet for the handler. -/
  | packet (r : ReceiverSocket) (data : List UInt8)
  | sendOrderbook (r : ReceiverSocket)
  | sendTrade (r : ReceiverSocket)
  | receiveOrderbook
  | matchOrderbook
  | calculateFeatures
  | receiveTrade
  | processTrade

inductive ProcessReport where
  /-- The handler of the receiver sends this. -/
  | sent (r : ReceiverSocket) (input : Input)
  | processed (r : ReceiverSocket) (input : Input)
  | shown (shown : Shown)

def inputOf : Sent → Input
  | .trade trade      => .trade trade
  | .orderbook update => .book update

namespace Process

/-- The receiver waits until what it sends is taken in. -/
def waits (s : Process) (r : ReceiverSocket) : Bool :=
  (s.orderbooks.sending r).isSome || (s.trades.sending r).isSome

def send (r : ReceiverSocket) (s : Process) : Sent → Process
  | .trade trade      => { s with trades := (Mpsc.step channelCapacity s.trades (.send r trade)).1 }
  | .orderbook update => { s with orderbooks := (Mpsc.step channelCapacity s.orderbooks (.send r update)).1 }

/-- The packet handler, in the task of a receiver. -/
def handle (s : Process) (r : ReceiverSocket) (data : List UInt8) : Process × List ProcessReport :=
  if r ∈ receivers ∧ s.waits r = false then
    let (aggregator, sent) := handlePacket s.aggregator data r.exchange.name r.dataType
    (sent.foldl (send r) { s with aggregator }, sent.map fun item => .sent r (inputOf item))
  else (s, [])

def step (s : Process) : ProcessAction → Process × List ProcessReport
  | .packet r data    => s.handle r data
  | .sendOrderbook r  => ({ s with orderbooks := (Mpsc.step channelCapacity s.orderbooks (.push r)).1 }, [])
  | .sendTrade r      => ({ s with trades := (Mpsc.step channelCapacity s.trades (.push r)).1 }, [])
  | .receiveOrderbook => ({ s with orderbooks := (Mpsc.step channelCapacity s.orderbooks .take).1 }, [])
  | .receiveTrade     => ({ s with trades := (Mpsc.step channelCapacity s.trades .take).1 }, [])
  | .matchOrderbook   =>
    match s.orderbooks.taken with
    | none             => (s, [])
    | some (_, update) =>
      if s.matched then (s, []) else ({ s with pipeline := s.pipeline.matchUpdate update, matched := true }, [])
  | .calculateFeatures =>
    match s.orderbooks.taken with
    | none             => (s, [])
    | some (r, update) =>
      if s.matched then
        let (pipeline, shown) := s.pipeline.calculate update
        ({ s with pipeline, matched := false
                  orderbooks := (Mpsc.step channelCapacity s.orderbooks .finish).1 },
          .processed r (.book update) :: shown.map .shown)
      else (s, [])
  | .processTrade =>
    match s.trades.taken with
    | none            => (s, [])
    | some (r, trade) =>
      ({ s with pipeline := s.pipeline.processTrade trade
                trades   := (Mpsc.step channelCapacity s.trades .finish).1 }, [.processed r (.trade trade)])

/-! ## What a step can do -/

/-- What the handler of a receiver sends has the receiver's label. -/
def Labelled (r : ReceiverSocket) (exchange : Exchange) : Prop :=
  r ∈ receivers ∧ exchange = parseExchange r.exchange.name

inductive Moves (s : Process) : Process → List ProcessReport → Prop where
  /-- A packet completes nothing, or nothing happens. -/
  | aggregated (aggregator : OrderBookAggregator) : Moves s { s with aggregator := aggregator } []
  | sentOrderbook (aggregator : OrderBookAggregator) (r : ReceiverSocket) (update : OrderBookUpdate)
      (hlabel : Labelled r update.exchange) (hfree : s.orderbooks.sending r = none) :
      Moves s { s with aggregator := aggregator
                       orderbooks := (Mpsc.step channelCapacity s.orderbooks (.send r update)).1 }
        [.sent r (.book update)]
  | sentTrade (aggregator : OrderBookAggregator) (r : ReceiverSocket) (trade : Trade)
      (hlabel : Labelled r trade.exchange) (hfree : s.trades.sending r = none) :
      Moves s { s with aggregator := aggregator, trades := (Mpsc.step channelCapacity s.trades (.send r trade)).1 }
        [.sent r (.trade trade)]
  /-- Something goes into a channel, or its task takes something out. -/
  | orderbooksMoved (action : Mpsc.Action ReceiverSocket OrderBookUpdate) (hshifts : action.Shifts) :
      Moves s { s with orderbooks := (Mpsc.step channelCapacity s.orderbooks action).1 } []
  | tradesMoved (action : Mpsc.Action ReceiverSocket Trade) (hshifts : action.Shifts) :
      Moves s { s with trades := (Mpsc.step channelCapacity s.trades action).1 } []
  | matched (r : ReceiverSocket) (update : OrderBookUpdate) (htaken : s.orderbooks.taken = some (r, update))
      (hmatched : s.matched = false) :
      Moves s { s with pipeline := s.pipeline.matchUpdate update, matched := true } []
  | calculated (r : ReceiverSocket) (update : OrderBookUpdate) (htaken : s.orderbooks.taken = some (r, update))
      (hmatched : s.matched = true) :
      Moves s { s with pipeline := (s.pipeline.calculate update).1, matched := false
                       orderbooks := (Mpsc.step channelCapacity s.orderbooks .finish).1 }
        (.processed r (.book update) :: (s.pipeline.calculate update).2.map .shown)
  | traded (r : ReceiverSocket) (trade : Trade) (htaken : s.trades.taken = some (r, trade)) :
      Moves s { s with pipeline := s.pipeline.processTrade trade
                       trades := (Mpsc.step channelCapacity s.trades .finish).1 } [.processed r (.trade trade)]

theorem Moves.none (s : Process) : Moves s s [] := .aggregated s.aggregator

/-- What is parsed is labelled with the name the receiver has. -/
theorem exchange_parseItem {data : List UInt8} {exchangeName : String} {dataType : DataType} {item : Item}
    (h : parseItem data exchangeName dataType = some item) : item.exchange = parseExchange exchangeName := by
  unfold parseItem at h
  split at h
  · cases h
  · cases dataType with
    | trade =>
        obtain ⟨trade, htrade, rfl⟩ := Option.map_eq_some_iff.mp h
        obtain ⟨read, -, rfl⟩ := Option.map_eq_some_iff.mp htrade
        rfl
    | orderBook =>
        obtain ⟨levels, -, rfl⟩ := Option.map_eq_some_iff.mp h
        rfl

/-- The handler sends one thing at most, labelled with the name the receiver has. -/
theorem sent_handlePacket (agg : OrderBookAggregator) (data : List UInt8) (exchangeName : String) (dataType : DataType) :
    (handlePacket agg data exchangeName dataType).2 = [] ∨
    ∃ item, (handlePacket agg data exchangeName dataType).2 = [item] ∧
      (inputOf item).exchange = parseExchange exchangeName := by
  rw [handlePacket_eq]
  cases hparsed : parseItem data exchangeName dataType with
  | none => exact Or.inl rfl
  | some item =>
      have hexchange := exchange_parseItem hparsed
      cases item with
      | trade trade => exact Or.inr ⟨.trade trade, rfl, hexchange⟩
      | levels exchange symbol levels =>
          show (absorb agg (parsePacketHeader data) (.levels exchange symbol levels)).2 = [] ∨
            ∃ item, (absorb agg (parsePacketHeader data) (.levels exchange symbol levels)).2 = [item] ∧ _
          unfold absorb
          dsimp only
          split
          · generalize (OrderBookAggregator.takeComplete _ _).2 = complete
            cases complete with
            | none => exact Or.inl rfl
            | some sides => exact Or.inr ⟨_, rfl, hexchange⟩
          · exact Or.inl rfl

theorem moves_handle (s : Process) (r : ReceiverSocket) (data : List UInt8) :
    Moves s (s.handle r data).1 (s.handle r data).2 := by
  unfold handle
  split
  next hfree =>
    dsimp only
    obtain ⟨hreceiver, hwaits⟩ := hfree
    unfold waits at hwaits
    rw [Bool.or_eq_false_iff, Option.isSome_eq_false_iff, Option.isSome_eq_false_iff, Option.isNone_iff_eq_none,
      Option.isNone_iff_eq_none] at hwaits
    rcases sent_handlePacket s.aggregator data r.exchange.name r.dataType with hnone | ⟨item, hone, hexchange⟩
    · rw [hnone]
      exact .aggregated _
    · rw [hone]
      cases item with
      | trade trade => exact .sentTrade _ r trade ⟨hreceiver, hexchange⟩ hwaits.2
      | orderbook update => exact .sentOrderbook _ r update ⟨hreceiver, hexchange⟩ hwaits.1
  next => exact .none s

/-- **Every step is one of these.** -/
theorem moves_step (s : Process) (action : ProcessAction) : Moves s (s.step action).1 (s.step action).2 := by
  cases action with
  | packet r data => exact moves_handle s r data
  | sendOrderbook r => exact .orderbooksMoved (.push r) trivial
  | sendTrade r => exact .tradesMoved (.push r) trivial
  | receiveOrderbook => exact .orderbooksMoved .take trivial
  | receiveTrade => exact .tradesMoved .take trivial
  | matchOrderbook =>
      unfold step
      dsimp only
      split
      · exact .none s
      next r update htaken =>
        split
        next => exact .none s
        next hmatched => exact .matched r update htaken (by simpa using hmatched)
  | calculateFeatures =>
      unfold step
      dsimp only
      split
      · exact .none s
      next r update htaken =>
        split
        next hmatched => exact .calculated r update htaken hmatched
        next => exact .none s
  | processTrade =>
      unfold step
      dsimp only
      split
      · exact .none s
      next r trade htaken => exact .traded r trade htaken

/-! ## What is sent, processed and shown -/

def sentIn (out : List ProcessReport) : List (ReceiverSocket × Input) :=
  out.filterMap fun
    | .sent r input => some (r, input)
    | _             => none

def processedIn (out : List ProcessReport) : List (ReceiverSocket × Input) :=
  out.filterMap fun
    | .processed r input => some (r, input)
    | _                  => none

def shownIn (out : List ProcessReport) : List Shown :=
  out.filterMap fun
    | .shown shown => some shown
    | _            => none

def booksIn (entries : List (ReceiverSocket × Input)) : List (ReceiverSocket × OrderBookUpdate) :=
  entries.filterMap fun
    | (r, .book update) => some (r, update)
    | _                 => none

def tradesIn (entries : List (ReceiverSocket × Input)) : List (ReceiverSocket × Trade) :=
  entries.filterMap fun
    | (r, .trade trade) => some (r, trade)
    | _                 => none

theorem sentIn_append (out more : List ProcessReport) : sentIn (out ++ more) = sentIn out ++ sentIn more :=
  List.filterMap_append

theorem processedIn_append (out more : List ProcessReport) :
    processedIn (out ++ more) = processedIn out ++ processedIn more := List.filterMap_append

theorem shownIn_append (out more : List ProcessReport) : shownIn (out ++ more) = shownIn out ++ shownIn more :=
  List.filterMap_append

theorem booksIn_append (entries more : List (ReceiverSocket × Input)) :
    booksIn (entries ++ more) = booksIn entries ++ booksIn more := List.filterMap_append

theorem tradesIn_append (entries more : List (ReceiverSocket × Input)) :
    tradesIn (entries ++ more) = tradesIn entries ++ tradesIn more := List.filterMap_append

theorem shownIn_map (shown : List Shown) : shownIn (shown.map .shown) = shown ∧ processedIn (shown.map .shown) = [] ∧
    sentIn (shown.map .shown) = [] := by
  induction shown with
  | nil => exact ⟨rfl, rfl, rfl⟩
  | cons first shown ih =>
      obtain ⟨hshown, hprocessed, hsent⟩ := ih
      exact ⟨congrArg (first :: ·) hshown, hprocessed, hsent⟩

/-! ## One task, one input after the other -/

/-- The pipeline of a single task that processes what has been processed, and what it shows. -/
def inOrder (lookbackMs : Int) (out : List ProcessReport) : FeaturePipeline × List Shown :=
  run pipelineStep (.new lookbackMs) ((processedIn out).map Prod.snd)

/-- The engine may be ahead by the update that the book task is at. -/
def ahead (s : Process) (p : FeaturePipeline) : FeaturePipeline :=
  if s.matched then s.orderbooks.taken.elim p fun entry => p.matchUpdate entry.2 else p

theorem ahead_unmatched {s : Process} (h : s.matched = false) (p : FeaturePipeline) : s.ahead p = p := by
  unfold ahead
  rw [h]
  rfl

theorem ahead_matched {s : Process} (h : s.matched = true) {entry : ReceiverSocket × OrderBookUpdate}
    (htaken : s.orderbooks.taken = some entry) (p : FeaturePipeline) : s.ahead p = p.matchUpdate entry.2 := by
  unfold ahead
  rw [if_pos h, htaken]
  rfl

theorem processTrade_ahead (s : Process) (p : FeaturePipeline) (trade : Trade) :
    (s.ahead p).processTrade trade = s.ahead (p.processTrade trade) := by
  unfold ahead
  split
  · cases s.orderbooks.taken with
    | none => rfl
    | some entry => rfl
  · rfl

theorem inOrder_append (lookbackMs : Int) (out : List ProcessReport) {more : List ProcessReport} {r : ReceiverSocket}
    {input : Input} (h : processedIn more = [(r, input)]) :
    inOrder lookbackMs (out ++ more) = ((pipelineStep (inOrder lookbackMs out).1 input).1,
      (inOrder lookbackMs out).2 ++ (pipelineStep (inOrder lookbackMs out).1 input).2) := by
  unfold inOrder
  rw [processedIn_append, h, List.map_append]
  apply Prod.ext
  · exact run_append_state ..
  · rw [run_append_outputs, List.map_singleton, run_cons, run_nil, List.append_nil]

structure Sequential (lookbackMs : Int) (s : Process) (out : List ProcessReport) : Prop where
  shown    : shownIn out = (inOrder lookbackMs out).2
  pipeline : s.pipeline = s.ahead (inOrder lookbackMs out).1
  matched  : s.matched = true → s.orderbooks.taken ≠ none

variable {lookbackMs : Int}

/-- Nothing is processed, and the book task is where it was. -/
theorem Sequential.same {s s' : Process} {out more : List ProcessReport} (h : Sequential lookbackMs s out)
    (hprocessed : processedIn more = []) (hshown : shownIn more = []) (hpipeline : s'.pipeline = s.pipeline)
    (hmatched : s'.matched = s.matched)
    (htaken : s.orderbooks.taken ≠ none → s'.orderbooks.taken = s.orderbooks.taken) :
    Sequential lookbackMs s' (out ++ more) := by
  have horder : inOrder lookbackMs (out ++ more) = inOrder lookbackMs out := by
    unfold inOrder
    rw [processedIn_append, hprocessed, List.append_nil]
  refine ⟨?_, ?_, fun hahead => ?_⟩
  · rw [shownIn_append, hshown, List.append_nil, horder]
    exact h.shown
  · rw [hpipeline, horder, h.pipeline]
    cases hahead : s.matched with
    | false => rw [ahead_unmatched hahead, ahead_unmatched (hmatched.trans hahead)]
    | true =>
        obtain ⟨entry, hentry⟩ := Option.ne_none_iff_exists'.mp (h.matched hahead)
        rw [ahead_matched hahead hentry,
          ahead_matched (hmatched.trans hahead) ((htaken (h.matched hahead)).trans hentry)]
  · have hbefore := h.matched (hmatched ▸ hahead)
    rw [htaken hbefore]
    exact hbefore

theorem taken_send (s : Mpsc.State ReceiverSocket OrderBookUpdate) (r : ReceiverSocket) (update : OrderBookUpdate) :
    (Mpsc.step channelCapacity s (.send r update)).1.taken = s.taken := by
  unfold Mpsc.step
  dsimp only
  split <;> rfl

theorem Sequential.step {s : Process} {out : List ProcessReport} (h : Sequential lookbackMs s out)
    (action : ProcessAction) :
    Sequential lookbackMs (s.step action).1 (out ++ (s.step action).2) := by
  have hmoves := moves_step s action
  generalize (Process.step s action).1 = s' at hmoves
  generalize (Process.step s action).2 = more at hmoves
  cases hmoves with
  | aggregated aggregator => exact h.same rfl rfl rfl rfl fun _ => rfl
  | sentOrderbook aggregator r update _ _ => exact h.same rfl rfl rfl rfl fun _ => taken_send s.orderbooks r update
  | sentTrade aggregator r trade _ _ => exact h.same rfl rfl rfl rfl fun _ => rfl
  | orderbooksMoved move hshifts => exact h.same rfl rfl rfl rfl (Mpsc.step_shifts channelCapacity hshifts).2
  | tradesMoved move hshifts => exact h.same rfl rfl rfl rfl fun _ => rfl
  | matched r update htaken hmatched =>
      rw [List.append_nil]
      refine ⟨h.shown, ?_, fun _ => ?_⟩
      · show s.pipeline.matchUpdate update = _
        rw [h.pipeline, ahead_unmatched hmatched]
        exact (ahead_matched (s := { s with pipeline := _, matched := true }) rfl htaken _).symm
      · rw [htaken]
        exact nofun
  | calculated r update htaken hmatched =>
      obtain ⟨hshown, hprocessed, -⟩ := shownIn_map (s.pipeline.calculate update).2
      have hcalculate : s.pipeline.calculate update = pipelineStep (inOrder lookbackMs out).1 (.book update) := by
        rw [h.pipeline, ahead_matched hmatched htaken]
        exact calculate_matchUpdate _ update
      have horder := inOrder_append lookbackMs out
        (show processedIn (.processed r (.book update) :: (s.pipeline.calculate update).2.map .shown)
          = [(r, .book update)] from congrArg (List.cons (r, Input.book update)) hprocessed)
      refine ⟨?_, ?_, nofun⟩
      · rw [shownIn_append, horder, h.shown, ← hcalculate]
        exact congrArg ((inOrder lookbackMs out).2 ++ ·) hshown
      · rw [ahead_unmatched rfl, horder, ← hcalculate]
  | traded r trade htaken =>
      have horder := inOrder_append lookbackMs out (show processedIn [.processed r (.trade trade)] = _ from rfl)
      refine ⟨?_, ?_, h.matched⟩
      · rw [shownIn_append, horder, h.shown]
        rfl
      · rw [horder]
        show s.pipeline.processTrade trade = s.ahead ((inOrder lookbackMs out).1.processTrade trade)
        rw [h.pipeline, processTrade_ahead]

/-! ## Whose inputs are processed -/

/-- What is processed of a receiver, and what it then has in flight, is what it had in flight and what it sends. -/
structure Conserves (s s' : Process) (more : List ProcessReport) : Prop where
  orderbooks : ∀ r, Mpsc.itemsOf r (booksIn (processedIn more)) ++ Mpsc.flight s'.orderbooks r
    = Mpsc.flight s.orderbooks r ++ Mpsc.itemsOf r (booksIn (sentIn more))
  trades     : ∀ r, Mpsc.itemsOf r (tradesIn (processedIn more)) ++ Mpsc.flight s'.trades r
    = Mpsc.flight s.trades r ++ Mpsc.itemsOf r (tradesIn (sentIn more))

theorem flight_send {α : Type} {s : Mpsc.State ReceiverSocket α} {r : ReceiverSocket} (hfree : s.sending r = none)
    (item : α) (other : ReceiverSocket) :
    Mpsc.flight (Mpsc.step channelCapacity s (.send r item)).1 other
      = Mpsc.flight s other ++ Mpsc.itemsOf other [(r, item)] := by
  have hflight := Mpsc.step_flight channelCapacity s (.send r item) other
  have hnothing : (Mpsc.step channelCapacity s (.send r item)).2 = [] := by simp [Mpsc.step, hfree]
  rw [hnothing] at hflight
  refine hflight.trans (congrArg (Mpsc.flight s other ++ ·) ?_)
  show (if r = other ∧ (s.sending r).isNone then [item] else []) = _
  by_cases h : r = other
  · rw [← h, Mpsc.itemsOf_self, if_pos ⟨rfl, Option.isNone_iff_eq_none.mpr hfree⟩]
  · rw [Mpsc.itemsOf_other h, if_neg fun hboth => h hboth.1]

theorem flight_shifts {α : Type} (s : Mpsc.State ReceiverSocket α) {action : Mpsc.Action ReceiverSocket α}
    (h : action.Shifts) (r : ReceiverSocket) :
    Mpsc.flight (Mpsc.step channelCapacity s action).1 r = Mpsc.flight s r := by
  have hflight := Mpsc.step_flight channelCapacity s action r
  rw [(Mpsc.step_shifts channelCapacity h).1] at hflight
  cases action with
  | push other => exact hflight.trans (List.append_nil _)
  | take => exact hflight.trans (List.append_nil _)
  | send other item => exact absurd h id
  | finish => exact absurd h id

theorem flight_finish {α : Type} {s : Mpsc.State ReceiverSocket α} {entry : ReceiverSocket × α}
    (htaken : s.taken = some entry) (r : ReceiverSocket) :
    Mpsc.itemsOf r [entry] ++ Mpsc.flight (Mpsc.step channelCapacity s .finish).1 r = Mpsc.flight s r := by
  have hflight := Mpsc.step_flight channelCapacity s .finish r
  have hfinished : (Mpsc.step channelCapacity s .finish).2 = [entry] := by simp [Mpsc.step, htaken]
  rw [hfinished] at hflight
  exact hflight.trans (List.append_nil _)

theorem conserves_step (s : Process) (action : ProcessAction) : Conserves s (s.step action).1 (s.step action).2 := by
  have hmoves := moves_step s action
  generalize (Process.step s action).1 = s' at hmoves
  generalize (Process.step s action).2 = more at hmoves
  have hsame : ∀ {α : Type} (t : Mpsc.State ReceiverSocket α) r,
      Mpsc.itemsOf r [] ++ Mpsc.flight t r = Mpsc.flight t r ++ Mpsc.itemsOf r [] := by
    intro α t r
    exact (List.append_nil _).symm
  cases hmoves with
  | aggregated aggregator => exact ⟨hsame s.orderbooks, hsame s.trades⟩
  | sentOrderbook aggregator r update _ hfree => exact ⟨flight_send hfree update, hsame s.trades⟩
  | sentTrade aggregator r trade _ hfree => exact ⟨hsame s.orderbooks, flight_send hfree trade⟩
  | orderbooksMoved move hshifts =>
      refine ⟨fun r => ?_, hsame s.trades⟩
      rw [flight_shifts s.orderbooks hshifts r]
      exact hsame s.orderbooks r
  | tradesMoved move hshifts =>
      refine ⟨hsame s.orderbooks, fun r => ?_⟩
      rw [flight_shifts s.trades hshifts r]
      exact hsame s.trades r
  | matched r update _ _ => exact ⟨hsame s.orderbooks, hsame s.trades⟩
  | calculated r update htaken _ =>
      obtain ⟨-, hprocessed, hsent⟩ := shownIn_map (s.pipeline.calculate update).2
      have hprocessed : processedIn (.processed r (.book update) :: (s.pipeline.calculate update).2.map .shown)
          = [(r, .book update)] := congrArg (List.cons (r, Input.book update)) hprocessed
      have hsent : sentIn (.processed r (.book update) :: (s.pipeline.calculate update).2.map .shown) = [] := hsent
      constructor
      · rw [hprocessed, hsent]
        exact fun other => (flight_finish htaken other).trans (List.append_nil _).symm
      · rw [hprocessed, hsent]
        exact hsame s.trades
  | traded r trade htaken =>
      exact ⟨hsame s.orderbooks, fun other => (flight_finish htaken other).trans (List.append_nil _).symm⟩

/-- What has been sent is processed or in flight, and the channels are as full as they may be. -/
structure Accounted (s : Process) (out : List ProcessReport) : Prop where
  orderbooks : ∀ r, Mpsc.itemsOf r (booksIn (processedIn out)) ++ Mpsc.flight s.orderbooks r
    = Mpsc.itemsOf r (booksIn (sentIn out))
  trades     : ∀ r, Mpsc.itemsOf r (tradesIn (processedIn out)) ++ Mpsc.flight s.trades r
    = Mpsc.itemsOf r (tradesIn (sentIn out))
  room       : s.orderbooks.queue.length ≤ channelCapacity ∧ s.trades.queue.length ≤ channelCapacity
  labels     : Mpsc.Holds (fun r update => Labelled r update.exchange) s.orderbooks ∧
    Mpsc.Holds (fun r trade => Labelled r trade.exchange) s.trades
  processed  : ∀ entry ∈ processedIn out, Labelled entry.1 entry.2.exchange

theorem Accounted.new (lookbackMs : Int) : Accounted (.new lookbackMs) [] where
  orderbooks := fun _ => rfl
  trades     := fun _ => rfl
  room       := ⟨Nat.zero_le _, Nat.zero_le _⟩
  labels     := ⟨.empty, .empty⟩
  processed  := fun _ hentry => absurd hentry List.not_mem_nil

/-- What the channels keep. -/
theorem Accounted.channels {s : Process} {out : List ProcessReport} (h : Accounted s out) (action : ProcessAction) :
    ((s.step action).1.orderbooks.queue.length ≤ channelCapacity ∧
      (s.step action).1.trades.queue.length ≤ channelCapacity) ∧
    Mpsc.Holds (fun r update => Labelled r update.exchange) (s.step action).1.orderbooks ∧
    Mpsc.Holds (fun r trade => Labelled r trade.exchange) (s.step action).1.trades := by
  obtain ⟨hbooks, htrades⟩ := h.labels
  obtain ⟨hbookRoom, htradeRoom⟩ := h.room
  have hmoves := moves_step s action
  generalize (s.step action).1 = s' at hmoves
  generalize (s.step action).2 = more at hmoves
  cases hmoves with
  | aggregated aggregator => exact ⟨⟨hbookRoom, htradeRoom⟩, hbooks, htrades⟩
  | sentOrderbook aggregator r update hlabel _ =>
      refine ⟨⟨Mpsc.length_step channelCapacity hbookRoom _, htradeRoom⟩, hbooks.step channelCapacity ?_, htrades⟩
      rintro _ _ ⟨⟩
      exact hlabel
  | sentTrade aggregator r trade hlabel _ =>
      refine ⟨⟨hbookRoom, Mpsc.length_step channelCapacity htradeRoom _⟩, hbooks, htrades.step channelCapacity ?_⟩
      rintro _ _ ⟨⟩
      exact hlabel
  | orderbooksMoved move hshifts =>
      exact ⟨⟨Mpsc.length_step channelCapacity hbookRoom _, htradeRoom⟩,
        hbooks.drains channelCapacity hshifts.drains, htrades⟩
  | tradesMoved move hshifts =>
      exact ⟨⟨hbookRoom, Mpsc.length_step channelCapacity htradeRoom _⟩, hbooks,
        htrades.drains channelCapacity hshifts.drains⟩
  | matched r update _ _ => exact ⟨⟨hbookRoom, htradeRoom⟩, hbooks, htrades⟩
  | calculated r update _ _ =>
      exact ⟨⟨Mpsc.length_step channelCapacity hbookRoom _, htradeRoom⟩, hbooks.drains channelCapacity trivial, htrades⟩
  | traded r trade _ =>
      exact ⟨⟨hbookRoom, Mpsc.length_step channelCapacity htradeRoom _⟩, hbooks,
        htrades.drains channelCapacity trivial⟩

/-- What is processed in a step has its receiver's label. -/
theorem Accounted.processed_step {s : Process} {out : List ProcessReport} (h : Accounted s out)
    (action : ProcessAction) : ∀ entry ∈ processedIn (s.step action).2, Labelled entry.1 entry.2.exchange := by
  have hmoves := moves_step s action
  generalize (s.step action).1 = s' at hmoves
  generalize (s.step action).2 = more at hmoves
  cases hmoves with
  | calculated r update htaken _ =>
      have hprocessed : processedIn (.processed r (.book update) :: (s.pipeline.calculate update).2.map .shown)
          = [(r, .book update)] :=
        congrArg (List.cons (r, Input.book update)) (shownIn_map (s.pipeline.calculate update).2).2.1
      rw [hprocessed]
      intro entry hentry
      obtain rfl := List.mem_singleton.mp hentry
      exact h.labels.1.taken _ htaken
  | traded r trade htaken =>
      intro entry hentry
      obtain rfl := List.mem_singleton.mp hentry
      exact h.labels.2.taken _ htaken
  | _ => exact fun _ hentry => absurd hentry List.not_mem_nil

theorem Accounted.step {s : Process} {out : List ProcessReport} (h : Accounted s out) (action : ProcessAction) :
    Accounted (s.step action).1 (out ++ (s.step action).2) := by
  obtain ⟨hroom, hlabels⟩ := h.channels action
  have hconserves := conserves_step s action
  refine ⟨fun r => ?_, fun r => ?_, hroom, hlabels, ?_⟩
  · rw [processedIn_append, sentIn_append, booksIn_append, booksIn_append, Mpsc.itemsOf_append, Mpsc.itemsOf_append,
      List.append_assoc, hconserves.orderbooks, ← List.append_assoc, h.orderbooks]
  · rw [processedIn_append, sentIn_append, tradesIn_append, tradesIn_append, Mpsc.itemsOf_append,
      Mpsc.itemsOf_append, List.append_assoc, hconserves.trades, ← List.append_assoc, h.trades]
  · rw [processedIn_append]
    intro entry hentry
    rcases List.mem_append.mp hentry with hentry | hentry
    · exact h.processed entry hentry
    · exact h.processed_step action entry hentry

/-! ## Whole runs -/

section Runs

variable (lookbackMs : Int)

/-- The binary after these steps, and what it has reported. -/
def after (actions : List ProcessAction) : Process := (run step (.new lookbackMs) actions).1

def reports (actions : List ProcessAction) : List ProcessReport := (run step (.new lookbackMs) actions).2

theorem invariant_run (actions : List ProcessAction) :
    Sequential lookbackMs (after lookbackMs actions) (reports lookbackMs actions) ∧
    Accounted (after lookbackMs actions) (reports lookbackMs actions) := by
  have hstep : ∀ s out action, Sequential lookbackMs s out ∧ Accounted s out → True →
      Sequential lookbackMs (s.step action).1 (out ++ (s.step action).2) ∧
      Accounted (s.step action).1 (out ++ (s.step action).2) := fun s out action h _ => ⟨h.1.step action, h.2.step action⟩
  have hnew : Sequential lookbackMs (.new lookbackMs) [] ∧ Accounted (.new lookbackMs) [] :=
    ⟨⟨rfl, rfl, nofun⟩, .new lookbackMs⟩
  exact (guarded_of_forall (P := fun _ => True) (fun _ _ => trivial) _).trace_invariant hstep hnew

/-- **The tasks show what one task would show.** It takes all that has been processed one after the other, with the label
    of the receiver, and of each receiver, that is what it has sent, in order, up to what it still has in flight. The
    pipeline is the one of that task, but for the engine, which may be ahead by the update the book task is at. -/
theorem shown_in_some_order (actions : List ProcessAction) :
    shownIn (reports lookbackMs actions) = (inOrder lookbackMs (reports lookbackMs actions)).2 ∧
    (after lookbackMs actions).pipeline
      = (after lookbackMs actions).ahead (inOrder lookbackMs (reports lookbackMs actions)).1 ∧
    (∀ entry ∈ processedIn (reports lookbackMs actions), Labelled entry.1 entry.2.exchange) ∧
    ∀ r,
      Mpsc.itemsOf r (booksIn (processedIn (reports lookbackMs actions)))
        ++ Mpsc.flight (after lookbackMs actions).orderbooks r
        = Mpsc.itemsOf r (booksIn (sentIn (reports lookbackMs actions))) ∧
      Mpsc.itemsOf r (tradesIn (processedIn (reports lookbackMs actions)))
        ++ Mpsc.flight (after lookbackMs actions).trades r
        = Mpsc.itemsOf r (tradesIn (sentIn (reports lookbackMs actions))) := by
  obtain ⟨hsequential, haccounted⟩ := invariant_run lookbackMs actions
  exact ⟨hsequential.shown, hsequential.pipeline, haccounted.processed,
    fun r => ⟨haccounted.orderbooks r, haccounted.trades r⟩⟩

end Runs

/-! ## All of it can be processed -/

/-- What drains a channel, step by step. -/
def drainOrderbooks : Mpsc.Action ReceiverSocket OrderBookUpdate → List ProcessAction
  | .push r => [.sendOrderbook r]
  | .take   => [.receiveOrderbook]
  | _       => [.matchOrderbook, .calculateFeatures]

def drainTrades : Mpsc.Action ReceiverSocket Trade → List ProcessAction
  | .push r => [.sendTrade r]
  | .take   => [.receiveTrade]
  | _       => [.processTrade]

/-- Whether or not the engine has had its turn. -/
theorem run_finish (s : Process) :
    (run step s [.matchOrderbook, .calculateFeatures]).1.orderbooks
      = (Mpsc.step channelCapacity s.orderbooks .finish).1 ∧
    (run step s [.matchOrderbook, .calculateFeatures]).1.trades = s.trades := by
  rw [run_cons, run_cons, run_nil]
  unfold step
  dsimp only
  cases htaken : s.orderbooks.taken with
  | none => simp [htaken, Mpsc.step]
  | some entry => cases hmatched : s.matched <;> simp [htaken, hmatched]

theorem run_drainOrderbooks (s : Process) {actions : List (Mpsc.Action ReceiverSocket OrderBookUpdate)}
    (hdrains : ∀ action ∈ actions, action.Drains) :
    (run step s (actions.flatMap drainOrderbooks)).1.orderbooks
      = (run (Mpsc.step channelCapacity) s.orderbooks actions).1 ∧
    (run step s (actions.flatMap drainOrderbooks)).1.trades = s.trades := by
  induction actions generalizing s with
  | nil => exact ⟨rfl, rfl⟩
  | cons action actions ih =>
      obtain ⟨hfirst, hrest⟩ := List.forall_mem_cons.mp hdrains
      have hone : (run step s (drainOrderbooks action)).1.orderbooks
          = (Mpsc.step channelCapacity s.orderbooks action).1 ∧
          (run step s (drainOrderbooks action)).1.trades = s.trades := by
        cases action with
        | send r item => exact absurd hfirst id
        | finish => exact run_finish s
        | _ => exact ⟨rfl, rfl⟩
      obtain ⟨hbooks, htrades⟩ := ih (run step s (drainOrderbooks action)).1 hrest
      rw [List.flatMap_cons, run_append_state, run_cons, ← hone.1]
      exact ⟨hbooks, htrades.trans hone.2⟩

theorem run_drainTrades (s : Process) {actions : List (Mpsc.Action ReceiverSocket Trade)}
    (hdrains : ∀ action ∈ actions, action.Drains) :
    (run step s (actions.flatMap drainTrades)).1.trades = (run (Mpsc.step channelCapacity) s.trades actions).1 ∧
    (run step s (actions.flatMap drainTrades)).1.orderbooks = s.orderbooks := by
  induction actions generalizing s with
  | nil => exact ⟨rfl, rfl⟩
  | cons action actions ih =>
      obtain ⟨hfirst, hrest⟩ := List.forall_mem_cons.mp hdrains
      have hone : (run step s (drainTrades action)).1.trades = (Mpsc.step channelCapacity s.trades action).1 ∧
          (run step s (drainTrades action)).1.orderbooks = s.orderbooks := by
        cases action with
        | send r item => exact absurd hfirst id
        | finish =>
            show (step s .processTrade).1.trades = _ ∧ (step s .processTrade).1.orderbooks = _
            unfold step
            dsimp only
            cases htaken : s.trades.taken with
            | none => simp [htaken, Mpsc.step]
            | some entry => exact ⟨rfl, rfl⟩
        | _ => exact ⟨rfl, rfl⟩
      obtain ⟨htrades, hbooks⟩ := ih (run step s (drainTrades action)).1 hrest
      rw [List.flatMap_cons, run_append_state, run_cons, ← hone.1]
      exact ⟨htrades, hbooks.trans hone.2⟩

/-- Anything but a packet. -/
def Works : ProcessAction → Prop
  | .packet .. => False
  | _          => True

theorem sentIn_works (s : Process) {actions : List ProcessAction} (h : ∀ action ∈ actions, Works action) :
    sentIn (run step s actions).2 = [] := by
  induction actions generalizing s with
  | nil => rfl
  | cons action actions ih =>
      obtain ⟨hfirst, hrest⟩ := List.forall_mem_cons.mp h
      have hstep : sentIn (s.step action).2 = [] := by
        cases action with
        | packet r data => exact absurd hfirst id
        | matchOrderbook =>
            unfold step
            dsimp only
            split
            · rfl
            · split <;> rfl
        | calculateFeatures =>
            unfold step
            dsimp only
            split
            · rfl
            · split
              · exact (shownIn_map _).2.2
              · rfl
        | processTrade =>
            unfold step
            dsimp only
            split <;> rfl
        | _ => rfl
      rw [run_cons, sentIn_append, hstep, ih _ hrest, List.append_nil]

theorem works_drain {books : List (Mpsc.Action ReceiverSocket OrderBookUpdate)}
    {trades : List (Mpsc.Action ReceiverSocket Trade)} :
    ∀ action ∈ books.flatMap drainOrderbooks ++ trades.flatMap drainTrades, Works action := by
  intro action hmem
  rcases List.mem_append.mp hmem with hmem | hmem
  · obtain ⟨move, -, hmove⟩ := List.mem_flatMap.mp hmem
    cases move <;> simp [drainOrderbooks] at hmove <;> rcases hmove with rfl | rfl <;> trivial
  · obtain ⟨move, -, hmove⟩ := List.mem_flatMap.mp hmem
    cases move <;> simp [drainTrades] at hmove <;> subst hmove <;> trivial

/-- **All that has been sent can be processed**: from every state the receivers and the two tasks get there, without
    another packet. -/
theorem all_can_be_processed (lookbackMs : Int) (actions : List ProcessAction) :
    ∃ more : List ProcessAction, (∀ action ∈ more, Works action) ∧ ∀ r,
      Mpsc.itemsOf r (booksIn (processedIn (reports lookbackMs (actions ++ more))))
        = Mpsc.itemsOf r (booksIn (sentIn (reports lookbackMs actions))) ∧
      Mpsc.itemsOf r (tradesIn (processedIn (reports lookbackMs (actions ++ more))))
        = Mpsc.itemsOf r (tradesIn (sentIn (reports lookbackMs actions))) := by
  obtain ⟨hbooks, htrades⟩ := (invariant_run lookbackMs actions).2.labels
  have hfree : ∀ {α : Type} {s : Mpsc.State ReceiverSocket α} {exchange : α → Exchange},
      Mpsc.Holds (fun r item => Labelled r (exchange item)) s → ∀ r, r ∉ receivers → s.sending r = none := by
    intro α s exchange hholds r hr
    by_contra hsending
    obtain ⟨item, hitem⟩ := Option.ne_none_iff_exists'.mp hsending
    exact hr (hholds.sending r item hitem).1
  obtain ⟨bookMoves, hbookDrains, hbooksEmpty⟩ := Mpsc.exists_drain (show 0 < channelCapacity by decide)
    (after lookbackMs actions).orderbooks (hfree hbooks)
  obtain ⟨tradeMoves, htradeDrains, htradesEmpty⟩ := Mpsc.exists_drain (show 0 < channelCapacity by decide)
    (after lookbackMs actions).trades (hfree htrades)
  refine ⟨bookMoves.flatMap drainOrderbooks ++ tradeMoves.flatMap drainTrades, works_drain, fun r => ?_⟩
  have hdrained := run_drainOrderbooks (after lookbackMs actions) hbookDrains
  have hthen := run_drainTrades (run step (after lookbackMs actions) (bookMoves.flatMap drainOrderbooks)).1 htradeDrains
  have hstate : after lookbackMs (actions ++ (bookMoves.flatMap drainOrderbooks ++ tradeMoves.flatMap drainTrades))
      = (run step (run step (after lookbackMs actions) (bookMoves.flatMap drainOrderbooks)).1
          (tradeMoves.flatMap drainTrades)).1 := by
    unfold after
    rw [run_append_state, run_append_state]
  have hsent : sentIn (reports lookbackMs
      (actions ++ (bookMoves.flatMap drainOrderbooks ++ tradeMoves.flatMap drainTrades)))
      = sentIn (reports lookbackMs actions) := by
    unfold reports
    rw [run_append_outputs, sentIn_append, sentIn_works _ works_drain, List.append_nil]
  have haccounted := (invariant_run lookbackMs
    (actions ++ (bookMoves.flatMap drainOrderbooks ++ tradeMoves.flatMap drainTrades))).2
  have hbookFlight := haccounted.orderbooks r
  have htradeFlight := haccounted.trades r
  rw [hsent, hstate, hthen.2, hdrained.1, hbooksEmpty, Mpsc.flight_empty, List.append_nil] at hbookFlight
  rw [hsent, hstate, hthen.1, hdrained.2, htradesEmpty, Mpsc.flight_empty, List.append_nil] at htradeFlight
  exact ⟨hbookFlight, htradeFlight⟩

end Process

end Features
end TradingPlatform
